import Harmony.Vm.Interpreter
import Harmony.Proofs.Vm.Operations

/-!
Every entry of the four instruction sets of `jump_table.go` is `Sound`: its stack check asks for the
items its memory size, its gas function and its execution read, `CALL`'s read-only check finds its
value, `STOP` halts, and its execution cannot panic on those items and a memory that holds its
ranges, moves the frame as the stack table says and, with nested calls that give back no more than
they get, leaves the contract no more gas than it had, and less when it jumps.

The proof is one case an opcode, from the lemmas of the operation's execution, price and memory
size; opcodes with the same three lemmas share a case.
-/

namespace Harmony

open Go

namespace Vm

variable {S : Type}

/-- A jump's constant price is at least one. -/
theorem constGasFunc_charges {gas : UInt64} (positive : 0 < gas) :
    ∀ gt evm inv (frame : Frame S) size cost after,
      constGasFunc gas gt evm inv frame size = .ok (cost, after) → 0 < cost :=
  fun _ _ _ _ _ _ _ priced => constGasFunc_cost priced ▸ positive

/-- Every entry of Frontier's set; the opcodes of later forks have none. -/
theorem newFrontierInstructionSet_sound {op : OpCode} {o : operation S}
    (listed : newFrontierInstructionSet op = some o) : ∃ pops pushes, Sound op o pops pushes := by
  cases op <;> simp only [newFrontierInstructionSet, reduceCtorEq, Option.some.injEq] at listed <;>
    subst listed
  case STOP =>
    exact ⟨_, _, Keeps.sound rfl (by decide) (fun _ => rfl) (sized_none _)
      (priced_constGasFunc _ _) (keeps_opStop rfl) (fun jumps => absurd jumps Bool.false_ne_true)⟩
  case ADD | MUL | SUB | DIV | SDIV | MOD | SMOD | LT | GT | SLT | SGT | EQ | AND | XOR | OR | BYTE =>
    exact ⟨_, _, Keeps.sound_plain rfl (by decide) (sized_none _) (priced_constGasFunc _ _)
      (keeps_binaryOp _ rfl)⟩
  case ADDMOD | MULMOD =>
    exact ⟨_, _, Keeps.sound_plain rfl (by decide) (sized_none _) (priced_constGasFunc _ _)
      (keeps_ternaryOp _ rfl)⟩
  case EXP =>
    exact ⟨_, _, Keeps.sound_plain rfl (by decide) (sized_none _) priced_gasExp
      (keeps_binaryOp _ rfl)⟩
  case SIGNEXTEND =>
    exact ⟨_, _, Keeps.sound_plain rfl (by decide) (sized_none _) (priced_constGasFunc _ _)
      keeps_opSignExtend⟩
  case ISZERO | NOT | CALLDATALOAD | BLOCKHASH =>
    exact ⟨_, _, Keeps.sound_plain rfl (by decide) (sized_none _) (priced_constGasFunc _ _)
      (keeps_peekOp _ rfl)⟩
  case BALANCE | EXTCODESIZE | SLOAD =>
    exact ⟨_, _, Keeps.sound_plain rfl (by decide) (sized_none _) (priced_tableGas _ _)
      (keeps_peekOp _ rfl)⟩
  case ADDRESS | ORIGIN | CALLER | CALLVALUE | CALLDATASIZE | CODESIZE | GASPRICE | COINBASE
      | TIMESTAMP | NUMBER | DIFFICULTY | GASLIMIT | PC | MSIZE | GAS =>
    exact ⟨_, _, Keeps.sound_plain rfl (by decide) (sized_none _) (priced_constGasFunc _ _)
      (keeps_pushOp _ rfl)⟩
  case SHA3 =>
    exact ⟨_, _, Keeps.sound_plain rfl (by decide) (sized_memoryRange (by decide) (by decide))
      (priced_copierGas _ _ _ _ (by decide)) keeps_opSha3⟩
  case CALLDATACOPY =>
    exact ⟨_, _, Keeps.sound_plain rfl (by decide) (sized_memoryRange (by decide) (by decide))
      (priced_copierGas _ _ _ _ (by decide)) keeps_opCallDataCopy⟩
  case CODECOPY =>
    exact ⟨_, _, Keeps.sound_plain rfl (by decide) (sized_memoryRange (by decide) (by decide))
      (priced_copierGas _ _ _ _ (by decide)) keeps_opCodeCopy⟩
  case EXTCODECOPY =>
    exact ⟨_, _, Keeps.sound_plain rfl (by decide) (sized_memoryRange (by decide) (by decide))
      (priced_copierGas _ _ _ _ (by decide)) keeps_opExtCodeCopy⟩
  case POP =>
    exact ⟨_, _, Keeps.sound_plain rfl (by decide) (sized_none _) (priced_constGasFunc _ _)
      keeps_opPop⟩
  case MLOAD =>
    exact ⟨_, _, Keeps.sound_plain rfl (by decide) (sized_memoryFixed _ (by decide))
      (priced_memoryStepGas _ _ _) keeps_opMload⟩
  case MSTORE =>
    exact ⟨_, _, Keeps.sound_plain rfl (by decide) (sized_memoryFixed _ (by decide))
      (priced_memoryStepGas _ _ _) keeps_opMstore⟩
  case MSTORE8 =>
    exact ⟨_, _, Keeps.sound_plain rfl (by decide) (sized_memoryFixed _ (by decide))
      (priced_memoryStepGas _ _ _) keeps_opMstore8⟩
  case SSTORE =>
    exact ⟨_, _, Keeps.sound_plain rfl (by decide) (sized_none _) priced_gasSStore keeps_opSstore⟩
  -- The jumps pay a price of eight and ten.
  case JUMP =>
    exact ⟨_, _, Keeps.sound rfl (by decide) (fun stop => OpCode.noConfusion stop) (sized_none _)
      (priced_constGasFunc _ _) keeps_opJump fun _ => constGasFunc_charges (by decide)⟩
  case JUMPI =>
    exact ⟨_, _, Keeps.sound rfl (by decide) (fun stop => OpCode.noConfusion stop) (sized_none _)
      (priced_constGasFunc _ _) keeps_opJumpi fun _ => constGasFunc_charges (by decide)⟩
  case JUMPDEST =>
    exact ⟨_, _, Keeps.sound_plain rfl (by decide) (sized_none _) (priced_constGasFunc _ _)
      (keeps_opStop rfl)⟩
  case PUSH n =>
    exact ⟨_, _, Keeps.sound_plain rfl (by simp) (sized_none _) (priced_constGasFunc _ _)
      (keeps_makePush n)⟩
  case DUP n =>
    exact ⟨_, _, Keeps.sound_plain rfl (by simp) (sized_none _) (priced_constGasFunc _ _)
      (keeps_makeDup n)⟩
  case SWAP n =>
    exact ⟨_, _, Keeps.sound_plain rfl (by simp) (sized_none _) (priced_constGasFunc _ _)
      (keeps_makeSwap n)⟩
  case LOG n =>
    exact ⟨_, _, Keeps.sound_plain rfl (by simp) (sized_memoryRange (by omega) (by omega))
      (priced_makeGasLog _ _) (keeps_makeLog n)⟩
  case RETURN =>
    exact ⟨_, _, Keeps.sound_plain rfl (by decide) (sized_memoryRange (by decide) (by decide))
      (priced_gasRevert _ _) (keeps_opReturn rfl)⟩
  case SELFDESTRUCT =>
    exact ⟨_, _, Keeps.sound_plain rfl (by decide) (sized_none _) priced_gasSuicide
      keeps_opSuicide⟩
  -- Creations and calls give gas away and get it back, so their spending has its own lemmas.
  case CREATE =>
    exact ⟨_, _, rfl, fun create => OpCode.noConfusion create,
      fun create => OpCode.noConfusion create, sized_memoryRange (by decide) (by decide),
      priced_memoryStepGas _ _ _, runs_opCreate, moves_opCreate,
      fun gasTable _ => spends_opCreate gasTable⟩
  case CALL =>
    exact ⟨_, _, rfl, fun _ => by decide, fun call => OpCode.noConfusion call,
      sized_memoryCalls (by decide) (by decide), priced_gasCall _,
      (runs_callOp _ : Runs opCall _ _), (moves_callOp _ rfl : Moves _ _ opCall _ _),
      fun _ sane => spends_opCall sane⟩
  case CALLCODE =>
    exact ⟨_, _, rfl, fun callCode => OpCode.noConfusion callCode,
      fun callCode => OpCode.noConfusion callCode, sized_memoryCalls (by decide) (by decide),
      priced_gasCallCode _, (runs_callOp _ : Runs opCallCode _ _),
      (moves_callOp _ rfl : Moves _ _ opCallCode _ _), fun _ sane => spends_opCallCode sane⟩

theorem newHomesteadInstructionSet_sound {op : OpCode} {o : operation S}
    (listed : newHomesteadInstructionSet op = some o) : ∃ pops pushes, Sound op o pops pushes := by
  unfold newHomesteadInstructionSet at listed
  split at listed
  · -- `DELEGATECALL`, the one entry Homestead adds.
    cases listed
    exact ⟨_, _, rfl, fun delegate => OpCode.noConfusion delegate,
      fun delegate => OpCode.noConfusion delegate, sized_memoryCalls (by decide) (by decide),
      priced_gasDelegateCall _, (runs_delegateOp _ : Runs opDelegateCall _ _),
      (moves_delegateOp _ rfl : Moves _ _ opDelegateCall _ _),
      fun gasTable _ => spends_opDelegateCall gasTable⟩
  · exact newFrontierInstructionSet_sound listed

theorem newByzantiumInstructionSet_sound {op : OpCode} {o : operation S}
    (listed : newByzantiumInstructionSet op = some o) : ∃ pops pushes, Sound op o pops pushes := by
  unfold newByzantiumInstructionSet at listed
  -- Byzantium's four entries in the order of the table, then Homestead's.
  split at listed
  · cases listed
    exact ⟨_, _, rfl, fun static => OpCode.noConfusion static,
      fun static => OpCode.noConfusion static, sized_memoryCalls (by decide) (by decide),
      priced_gasDelegateCall _, (runs_delegateOp _ : Runs opStaticCall _ _),
      (moves_delegateOp _ rfl : Moves _ _ opStaticCall _ _),
      fun gasTable _ => spends_opStaticCall gasTable⟩
  · cases listed
    exact ⟨_, _, Keeps.sound_plain rfl (by decide) (sized_none _) (priced_constGasFunc _ _)
      (keeps_pushOp _ rfl)⟩
  · cases listed
    exact ⟨_, _, Keeps.sound_plain rfl (by decide) (sized_memoryRange (by decide) (by decide))
      (priced_copierGas _ _ _ _ (by decide)) keeps_opReturnDataCopy⟩
  · cases listed
    exact ⟨_, _, Keeps.sound_plain rfl (by decide) (sized_memoryRange (by decide) (by decide))
      (priced_gasRevert _ _) (keeps_opReturn rfl)⟩
  · exact newHomesteadInstructionSet_sound listed

theorem newConstantinopleInstructionSet_sound {op : OpCode} {o : operation S}
    (listed : newConstantinopleInstructionSet op = some o) :
    ∃ pops pushes, Sound op o pops pushes := by
  unfold newConstantinopleInstructionSet at listed
  -- The three shifts, `EXTCODEHASH` and `CREATE2`, then Byzantium's.
  split at listed
  · cases listed
    exact ⟨_, _, Keeps.sound_plain rfl (by decide) (sized_none _) (priced_constGasFunc _ _)
      (keeps_binaryOp _ rfl)⟩
  · cases listed
    exact ⟨_, _, Keeps.sound_plain rfl (by decide) (sized_none _) (priced_constGasFunc _ _)
      (keeps_binaryOp _ rfl)⟩
  · cases listed
    exact ⟨_, _, Keeps.sound_plain rfl (by decide) (sized_none _) (priced_constGasFunc _ _)
      (keeps_binaryOp _ rfl)⟩
  · cases listed
    exact ⟨_, _, Keeps.sound_plain rfl (by decide) (sized_none _) (priced_tableGas _ _)
      (keeps_peekOp _ rfl)⟩
  · cases listed
    exact ⟨_, _, rfl, fun create => OpCode.noConfusion create,
      fun create => OpCode.noConfusion create, sized_memoryRange (by decide) (by decide),
      priced_copierGas _ _ _ _ (by decide), runs_opCreate2, moves_opCreate2,
      fun gasTable _ => spends_opCreate2 gasTable⟩
  · exact newByzantiumInstructionSet_sound listed

/-- Every entry of the instruction set `NewEVMInterpreter` picks, for any chain rules. -/
theorem instructionSetFor_sound (evm : EVM S) {op : OpCode} {o : operation S}
    (listed : instructionSetFor evm op = some o) : ∃ pops pushes, Sound op o pops pushes := by
  unfold instructionSetFor at listed
  -- The latest fork the chain rules enable picks the set.
  split_ifs at listed
  · exact newConstantinopleInstructionSet_sound listed
  · exact newByzantiumInstructionSet_sound listed
  · exact newHomesteadInstructionSet_sound listed
  · exact newFrontierInstructionSet_sound listed

end Vm

end Harmony
