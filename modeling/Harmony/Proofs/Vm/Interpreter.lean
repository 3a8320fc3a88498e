import Harmony.Vm.Interpreter
import Harmony.Proofs.Vm.Operations

/-!
One iteration of `EVMInterpreter.Run`'s loop, taken apart: an iteration that goes on passed every
check of the loop, paid for its operation and ran it. The jumps of every instruction set then land
on an instruction start of the code, never inside the data of a `PUSH`.
-/

namespace Harmony

open Go

namespace Vm

variable {S : Type}

/-! ## The checks of an iteration -/

/-- A checked sub-step the iteration goes on from succeeded. -/
theorem Frame.checked_eq_inl {α : Type} {frame next : Frame S} {x : Exec α}
    {k : α → Iteration S} (went : frame.checked x k = .ok (.inl next)) :
    ∃ a, x = .ok a ∧ k a = .ok (.inl next) := by
  unfold Frame.checked at went
  split at went
  · cases went
  · simp [Frame.stop] at went
  · exact ⟨_, rfl, went⟩

/-- `makeStackFunc` passes only a stack with the items the operation pops. -/
theorem makeStackFunc_eq_ok {pops pushes : Nat} {stack : Stack} {u : Unit}
    (passed : makeStackFunc pops pushes stack = .ok u) : pops ≤ stack.length := by
  unfold makeStackFunc Stack.require at passed
  by_contra short
  rw [if_pos (by omega)] at passed
  cases passed

/-- A checked sub-step that cannot panic, with continuations that cannot fail, cannot fail. -/
theorem Frame.checked_ok {α : Type} {frame : Frame S} {x : Exec α} {k : α → Iteration S}
    (first : NoPanic x) (rest : ∀ a, x = .ok a → ∃ r, k a = .ok r) :
    ∃ r, frame.checked x k = .ok r := by
  -- A failure of the sub-step is the run's error; only a panic would fail the iteration.
  cases ran : x with
  | error e =>
    cases e with
    | panic what => exact absurd ran (first what)
    | error err => exact ⟨_, rfl⟩
  | ok a => exact rest a ran

theorem makeStackFunc_noPanic (pops pushes : Nat) (stack : Stack) :
    NoPanic (makeStackFunc pops pushes stack) := by
  simp [makeStackFunc, Stack.require]

/-- The read-only check reads `CALL`'s value only, the third item. -/
theorem enforceRestrictions_noPanic {interp : EVMInterpreter S} {readOnly : Bool} {op : OpCode}
    {o : operation S} {stack : Stack} (reads : op = .CALL → 2 < stack.length) :
    NoPanic (interp.enforceRestrictions readOnly op o stack) := by
  unfold EVMInterpreter.enforceRestrictions
  simp only [NoPanic.ite_iff]
  refine ⟨fun _ => ⟨fun _ => NoPanic.error _, fun _ => ⟨fun call => ?_, fun _ => NoPanic.pure _⟩⟩,
    fun _ => NoPanic.pure _⟩
  exact NoPanic.bind (Stack.Back_noPanic (reads call)) fun _ _ => by simp

theorem memorySizeOf_noPanic {o : operation S} {pops : Nat} {stack : Stack}
    (sized : Sized o.memorySize pops) (enough : pops ≤ stack.length) :
    NoPanic (memorySizeOf o stack) := by
  unfold memorySizeOf
  split
  · exact NoPanic.pure _
  · rename_i size named
    -- Past the size function, `bigUint64` and `SafeMul` report an overflow as an error.
    exact NoPanic.bind (sized size named stack enough) fun _ _ => by simp

/-- `memorySizeOf` rounds the size up and reports a product that wraps, so it never falls short. -/
theorem memorySizeOf_covers {o : operation S} {stack : Stack} {memorySize : UInt64}
    {size : Stack → Exec Nat} {n : Nat} (named : o.memorySize = some size)
    (sized : memorySizeOf o stack = .ok memorySize) (ran : size stack = .ok n) :
    n ≤ memorySize.toNat := by
  simp only [memorySizeOf, named, ran, bind, Except.bind, bigUint64, SafeMul] at sized
  -- `bigUint64` passed: the size fits 64 bits.
  by_cases wide : 64 < n.size
  · simp [wide, throw, throwThe, MonadExceptOf.throw] at sized
  have exact : (UInt64.ofNat n).toNat = n :=
    UInt64.toNat_ofNat_of_lt' (Nat.size_le.mp (by omega : n.size ≤ 64))
  have rounded := le_toWordSize_toNat_mul (UInt64.ofNat n)
  rw [exact] at rounded
  by_cases zero : toWordSize (UInt64.ofNat n) = 0
  · -- Only the empty size rounds to no words.
    rw [zero, UInt64.toNat_zero] at rounded
    omega
  · by_cases wraps : 32 > 0xffffffffffffffff / toWordSize (UInt64.ofNat n)
    · simp [wide, zero, wraps, throw, throwThe, MonadExceptOf.throw] at sized
    · simp [wide, zero, wraps, pure, Except.pure] at sized
      rw [← sized, toNat_mul_32 zero wraps]
      exact rounded

/-- The size an iteration pays for is within the bound `memoryGasCost` admits: zero for an
operation that touches no memory, and one its price admitted otherwise. -/
theorem memorySizeOf_fits {op : OpCode} {o : operation S} {pops pushes : Nat}
    (sound : Sound op o pops pushes) {stack : Stack} {memorySize : UInt64}
    (sized : memorySizeOf o stack = .ok memorySize) {gt : GasTable} {evm : EVM S}
    {inv : Invocation} {frame after : Frame S} {cost : UInt64}
    (priced : o.gasCost gt evm inv frame memorySize = .ok (cost, after)) :
    memorySize.toNat ≤ 0xffffffffe0 := by
  cases named : o.memorySize with
  | none =>
    simp only [memorySizeOf, named, pure, Except.pure, Except.ok.injEq] at sized
    rw [← sized]
    decide
  | some size => exact sound.priced.fits _ _ _ _ _ _ _ (by simp [named]) priced

/-- Charging grows the memory over the size paid for, and keeps it within the admitted bound. -/
theorem Frame.charge_mem_Len {frame : Frame S} {memorySize : UInt64} (cost : UInt64)
    (small : frame.mem.Len ≤ 0xffffffffe0) (fits : memorySize.toNat ≤ 0xffffffffe0) :
    memorySize.toNat ≤ (frame.charge cost memorySize).mem.Len ∧
      (frame.charge cost memorySize).mem.Len ≤ 0xffffffffe0 := by
  have within : frame.mem.Len < 2 ^ 64 := by omega
  simp only [Frame.charge]
  split_ifs with positive
  · by_cases grows : frame.mem.Len < memorySize.toNat
    · rw [Memory.Resize_Len within grows]
      omega
    · rw [Memory.Resize_of_covered within (by omega)]
      omega
  · -- No memory to pay for: the size is zero.
    rw [gt_iff_lt, UInt64.lt_iff_toNat_lt, UInt64.toNat_zero] at positive
    omega

/-- After the charge, the memory holds every range the operation's size names. -/
theorem Frame.charge_covers {o : operation S} {frame charged : Frame S} {cost memorySize : UInt64}
    (kept : Kept frame charged) (sized : memorySizeOf o frame.stack = .ok memorySize)
    (grown : memorySize.toNat ≤ (charged.charge cost memorySize).mem.Len) :
    Covers o.memorySize (charged.charge cost memorySize) := by
  intro size named n ran
  rw [Frame.charge_stack, kept.stack] at ran
  exact (memorySizeOf_covers named sized ran).trans grown

/--
An iteration that goes on found a valid opcode, passed the stack, read-only and memory checks,
paid the operation's gas and ran it, and the operation neither reverts nor halts. The frame it
goes on with is the operation's, with the return data when the operation returns, and the program
counter on the next byte unless the operation jumps.
-/
theorem EVMInterpreter.step_eq_inl {interp : EVMInterpreter S} {readOnly : Bool}
    {inv : Invocation} {frame next : Frame S}
    (stepped : interp.step readOnly inv frame = .ok (.inl next)) :
    ∃ op o memorySize cost charged after res,
      interp.operationAt (frame.contract.GetOp frame.pc) = some (op, o) ∧
      o.validateStack frame.stack = .ok () ∧
      memorySizeOf o frame.stack = .ok memorySize ∧
      o.gasCost interp.gasTable interp.evm inv frame memorySize = .ok (cost, charged) ∧
      cost ≤ charged.Gas ∧
      o.execute interp.evm inv (charged.charge cost memorySize) = .ok (after, res) ∧
      o.reverts = false ∧ o.halts = false ∧
      next = (let after := if o.returns then { after with returnData := res } else after
        if o.jumps then after else { after with pc := after.pc + 1 }) := by
  unfold EVMInterpreter.step at stepped
  dsimp only at stepped
  split at stepped
  · simp [Frame.stop] at stepped
  rename_i op o found
  obtain ⟨u, valid, stepped⟩ := Frame.checked_eq_inl stepped
  obtain ⟨-, -, stepped⟩ := Frame.checked_eq_inl stepped
  obtain ⟨memorySize, sized, stepped⟩ := Frame.checked_eq_inl stepped
  -- The gas function's own error is running out of gas, which stops the loop.
  split at stepped
  · cases stepped
  · simp [Frame.stop] at stepped
  rename_i cost charged priced
  by_cases short : charged.Gas < cost
  · rw [if_pos short] at stepped
    simp [Frame.stop] at stepped
  rw [if_neg short] at stepped
  split at stepped
  · cases stepped
  · simp [Frame.stop] at stepped
  rename_i after res ran
  refine ⟨op, o, memorySize, cost, charged, after, res, found, valid, sized, priced,
    UInt64.not_lt.mp short, ran, ?_⟩
  -- A revert or a halt stops the loop with the operation's data.
  split_ifs at stepped <;> simp only [Frame.stop, Except.ok.injEq, Sum.inl.injEq,
    reduceCtorEq] at stepped <;> subst stepped <;> simp_all

/-! ## The jumps -/

/-- The interpreter `NewEVMInterpreter` sets up finds a byte's entry in `instructionSetFor`. -/
theorem NewEVMInterpreter_operationAt {evm : EVM S} {gasTable : GasTable} {byte : UInt8}
    {op : OpCode} {o : operation S}
    (found : (NewEVMInterpreter evm gasTable).operationAt byte = some (op, o)) :
    OpCode.ofByte byte = some op ∧ instructionSetFor evm op = some o := by
  simp only [EVMInterpreter.operationAt, NewEVMInterpreter, Option.bind_eq_some_iff,
    Option.map_eq_some_iff, Prod.mk.injEq] at found
  obtain ⟨op', decoded, o', listed, rfl, rfl⟩ := found
  exact ⟨decoded, listed⟩

/-- Every instruction set takes `JUMP` and `JUMPI` from Frontier's. -/
theorem instructionSetFor_jump (evm : EVM S) {op : OpCode} (jump : op = .JUMP ∨ op = .JUMPI) :
    instructionSetFor evm op = newFrontierInstructionSet op := by
  unfold instructionSetFor
  rcases jump with rfl | rfl <;> split_ifs <;> rfl

/-- A state database of no state: every account is empty and every write is lost. -/
def idleStateDB : StateDB Unit where
  GetBalance _ _ := 0
  AddBalance s _ _ := s
  GetCodeHash _ _ := FixedBytes.zero 32
  GetCode _ _ := []
  GetCodeSize _ _ := 0
  AddRefund s _ := s
  SubRefund s _ := s
  GetCommittedState _ _ _ := FixedBytes.zero 32
  GetState _ _ _ := FixedBytes.zero 32
  SetState s _ _ _ := s
  Suicide s _ := s
  HasSuicided _ _ := false
  Exist _ _ := false
  Empty _ _ := true
  AddLog s _ := s
  AddPreimage s _ _ := s

/-- Frontier's EVM over no state, whose nested calls and creations give back no gas. -/
def idleEVM : EVM Unit where
  StateDB := idleStateDB
  GetHash _ := FixedBytes.zero 32
  Origin := FixedBytes.zero 20
  GasPrice := 0
  Coinbase := FixedBytes.zero 20
  GasLimit := 0
  BlockNumber := 0
  Time := 0
  Difficulty := 0
  IsHomestead := false
  IsEIP150 := false
  IsEIP158 := false
  IsByzantium := false
  IsConstantinople := false
  EnablePreimageRecording := false
  Keccak256 _ := FixedBytes.zero 32
  Call s _ _ _ _ _ := ⟨s, [], 0, none⟩
  CallCode s _ _ _ _ _ := ⟨s, [], 0, none⟩
  DelegateCall s _ _ _ _ := ⟨s, [], 0, none⟩
  StaticCall s _ _ _ _ := ⟨s, [], 0, none⟩
  Create s _ _ _ _ := ⟨s, [], FixedBytes.zero 20, 0, none⟩
  Create2 s _ _ _ _ _ := ⟨s, [], FixedBytes.zero 20, 0, none⟩

/-- A gas table of zero prices; the prices of the jumps do not read it. -/
def zeroGasTable : GasTable := ⟨0, 0, 0, 0, 0, 0, 0, 0, 0⟩

/-- `PUSH1 3; JUMP; JUMPDEST`, about to jump, with no analysis cached yet. -/
def pushedJumpFrame : Frame Unit :=
  { contract := ⟨∅, none, [0x60, 0x03, 0x56, 0x5b], FixedBytes.zero 32⟩,
    Gas := 100, pc := 2, stack := [3], mem := ⟨[], 0⟩, returnData := [], callGasTemp := 0,
    state := () }

/-- `pushedJumpFrame`'s contract has no hash and no analysis cached yet. -/
theorem pushedJumpFrame_analysed : pushedJumpFrame.contract.Analysed :=
  ⟨fun nonzero => absurd rfl nonzero, fun _ found => by simp [pushedJumpFrame] at found⟩

/--
An iteration of `Run` on a `JUMP` or a `JUMPI`, in the interpreter `NewEVMInterpreter` sets up for
any chain rules, that goes on keeps the code and the contract's analyses of it, and goes on either
at the next byte or at an instruction start of the code: a jump never lands inside the data of a
`PUSH`.
-/
theorem step_jump_lands_on_instruction {evm : EVM S} {gasTable : GasTable} {readOnly : Bool}
    {inv : Invocation} {frame next : Frame S} (analysed : frame.contract.Analysed)
    (jump : OpCode.ofByte (frame.contract.GetOp frame.pc) = some .JUMP ∨
      OpCode.ofByte (frame.contract.GetOp frame.pc) = some .JUMPI)
    (stepped : (NewEVMInterpreter evm gasTable).step readOnly inv frame = .ok (.inl next)) :
    next.contract.Code = frame.contract.Code ∧ next.contract.Analysed ∧
      (next.pc = frame.pc + 1 ∨ instructionStart frame.contract.Code next.pc = true) := by
  obtain ⟨op, o, memorySize, cost, charged, after, res, found, valid, -, priced, -, ran, -, -,
    rfl⟩ := EVMInterpreter.step_eq_inl stepped
  -- The table's entry is Frontier's `JUMP` or `JUMPI`: a constant price, no memory, a jump.
  obtain ⟨decoded, listed⟩ := NewEVMInterpreter_operationAt found
  rw [instructionSetFor_jump evm (by rcases jump with j | j <;> simp_all)] at listed
  have keeps : Keeps op true o.execute none (if op = .JUMP then 1 else 2) 0 ∧
      o.gasCost = constGasFunc (if op = .JUMP then GasMidStep else GasSlowStep) ∧
      o.validateStack = makeStackFunc (if op = .JUMP then 1 else 2) 0 ∧ o.jumps = true ∧
      o.returns = false := by
    rcases jump with j | j <;> rw [j] at decoded <;> cases decoded <;>
      simp only [newFrontierInstructionSet, Option.some.injEq] at listed <;> subst listed <;>
      simp only [reduceCtorEq, if_true, if_false, and_true]
    · exact keeps_opJump
    · exact keeps_opJumpi
  obtain ⟨keeps, gas, stack, jumps, returns⟩ := keeps
  -- The constant price leaves the frame as it was.
  rw [gas] at priced
  simp only [constGasFunc, pure, Except.pure, Except.ok.injEq, Prod.mk.injEq] at priced
  obtain ⟨rfl, rfl⟩ := priced
  have moved := (keeps.moves _ _ _ _ _ (by simpa using makeStackFunc_eq_ok (stack ▸ valid))
    (by simpa using analysed) ran).1
  simp only [jumps, returns, if_true, Bool.false_eq_true, reduceIte] at moved ⊢
  refine ⟨moved.code, moved.analysed, ?_⟩
  have plain : op.immediate = 0 := by
    rcases jump with j | j <;> rw [j] at decoded <;> cases decoded <;> rfl
  simpa [plain] using moved.pc

/-- The jump of `pushedJumpFrame` goes on at its `JUMPDEST`, an instruction start. -/
theorem step_jump_lands_on_instruction_pushed :
    ∃ next, (NewEVMInterpreter idleEVM zeroGasTable).step false
        ⟨FixedBytes.zero 20, FixedBytes.zero 20, 0, []⟩ pushedJumpFrame = .ok (.inl next) ∧
      next.contract.Code = pushedJumpFrame.contract.Code ∧ next.contract.Analysed ∧
      (next.pc = pushedJumpFrame.pc + 1 ∨
        instructionStart pushedJumpFrame.contract.Code next.pc = true) :=
  ⟨_, rfl, @step_jump_lands_on_instruction Unit idleEVM zeroGasTable false
    ⟨FixedBytes.zero 20, FixedBytes.zero 20, 0, []⟩ pushedJumpFrame _ pushedJumpFrame_analysed
    (Or.inl (by decide)) rfl⟩

end Vm

end Harmony
