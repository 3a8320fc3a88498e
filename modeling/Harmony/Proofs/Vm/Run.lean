import Harmony.Proofs.Vm.Interpreter
import Harmony.Proofs.Vm.JumpTable

/-!
Where `Run`'s loop executes, and that it finishes. From the start of an analysed contract, every
frame the loop goes on with keeps the code and the contract's analyses of it, its program counter
is an instruction start of the code or past its end, and its memory stays within the size
`memoryGasCost` admits. The loop therefore never executes a byte of `PUSH` data as an opcode, and
no iteration panics.

Every iteration that goes on either moves forward in the code at the same gas or, as a jump, pays
gas: with nested calls that give back no more gas than they are given, the loop stops within
`Gas * (length + 1) + length` iterations.
-/

namespace Harmony

open Go

namespace Vm

variable {S : Type}

/-! ## The frames of a run -/

/-- Where a frame of a run of `code` stands: on that code with its analyses, at an instruction
start or past the end. -/
structure Placed (code : Bytes) (frame : Frame S) : Prop where
  onCode : frame.contract.Code = code
  analysed : frame.contract.Analysed
  start : frame.pc < code.length → instructionStart code frame.pc = true

/-- The frame the loop goes on with: the operation's, with its return data when it returns, and
on the next byte unless it jumps. -/
theorem goesOn_parts (o : operation S) (after : Frame S) (res : Bytes) :
    let goesOn := (let after := if o.returns then { after with returnData := res } else after
      if o.jumps then after else { after with pc := after.pc + 1 })
    goesOn.contract = after.contract ∧ goesOn.mem = after.mem ∧ goesOn.Gas = after.Gas ∧
      goesOn.pc = if o.jumps then after.pc else after.pc + 1 := by
  cases o.returns <;> cases o.jumps <;> simp

/-- The byte at a program counter below the code's length is the code's own. -/
theorem getElem?_GetOp {c : Contract} {pc : Nat} (within : pc < c.Code.length) :
    c.Code[pc]? = some (c.GetOp pc) := by
  simp [Contract.GetOp, within]

/-- Past the end of the code the loop reads `STOP`, which halts: an iteration that goes on ran
inside the code. -/
theorem pc_lt_of_goesOn {evm : EVM S} {op : OpCode} {o : operation S} {c : Contract} {pc : Nat}
    (decoded : OpCode.ofByte (c.GetOp pc) = some op) (listed : instructionSetFor evm op = some o)
    (halts : o.halts = false) : pc < c.Code.length := by
  by_contra past
  have zero : c.GetOp pc = 0 := by
    simp [Contract.GetOp, List.getElem?_eq_none_iff.mpr (by omega : c.Code.length ≤ pc)]
  have stop : op = .STOP := by
    rw [zero, (by decide : OpCode.ofByte 0 = some .STOP)] at decoded
    exact (Option.some.inj decoded).symm
  obtain ⟨_, _, sound⟩ := instructionSetFor_sound evm listed
  rw [sound.stops stop] at halts
  cases halts

/--
An iteration of `Run`'s loop that goes on, from a frame whose contract's analyses are of its code,
ran a sound entry of the table inside the code: the entry's price kept the frame, its execution
moved the charged frame as its counts say, and the loop goes on with the operation's frame.
-/
theorem step_went {evm : EVM S} {gasTable : GasTable} {readOnly : Bool} {inv : Invocation}
    {frame next : Frame S} (analysed : frame.contract.Analysed)
    (stepped : (NewEVMInterpreter evm gasTable).step readOnly inv frame = .ok (.inl next)) :
    ∃ op o pops pushes memorySize cost charged after res,
      OpCode.ofByte (frame.contract.GetOp frame.pc) = some op ∧ Sound op o pops pushes ∧
      pops ≤ frame.stack.length ∧ memorySizeOf o frame.stack = .ok memorySize ∧
      o.gasCost gasTable evm inv frame memorySize = .ok (cost, charged) ∧ cost ≤ charged.Gas ∧
      Kept frame charged ∧ o.execute evm inv (charged.charge cost memorySize) = .ok (after, res) ∧
      Moved op o.jumps pops pushes (charged.charge cost memorySize) after ∧
      frame.pc < frame.contract.Code.length ∧
      next.contract = after.contract ∧ next.mem = after.mem ∧ next.Gas = after.Gas ∧
      next.pc = if o.jumps then after.pc else after.pc + 1 := by
  obtain ⟨op, o, memorySize, cost, charged, after, res, found, valid, sized, priced, paid, ran, -,
    halts, goesOn⟩ := EVMInterpreter.step_eq_inl stepped
  obtain ⟨decoded, listed⟩ := NewEVMInterpreter_operationAt found
  -- The entry is one of the table's, all of which are sound.
  obtain ⟨pops, pushes, sound⟩ := instructionSetFor_sound evm listed
  have enough := makeStackFunc_eq_ok (sound.validate ▸ valid)
  have kept := sound.priced.keeps _ _ _ _ _ _ _ priced
  have moved := sound.moves _ _ _ _ _ (by simpa [kept.stack] using enough)
    (by simpa [kept.contract] using analysed) ran
  obtain ⟨contract, mem, Gas, pc⟩ := goesOn_parts o after res
  rw [← goesOn] at contract mem Gas pc
  exact ⟨op, o, pops, pushes, memorySize, cost, charged, after, res, decoded, sound, enough, sized,
    priced, paid, kept, ran, moved, pc_lt_of_goesOn decoded listed halts, contract, mem, Gas, pc⟩

/-! ## Frames on instruction starts -/

/-- One iteration of `Run`'s loop keeps its frames placed. -/
theorem step_placed {evm : EVM S} {gasTable : GasTable} {readOnly : Bool} {inv : Invocation}
    {code : Bytes} {frame next : Frame S} (placed : Placed code frame)
    (stepped : (NewEVMInterpreter evm gasTable).step readOnly inv frame = .ok (.inl next)) :
    Placed code next := by
  obtain ⟨op, o, _, _, _, cost, charged, after, _, decoded, -, -, -, -, -, kept, -, moved, within,
    contract, -, -, pc⟩ := step_went placed.analysed stepped
  have onCode : after.contract.Code = code := by
    rw [moved.code, Frame.charge_contract, kept.contract, placed.onCode]
  -- Past the operation and its immediate data the scan starts the next instruction.
  have following : frame.pc + 1 + pushSize (frame.contract.GetOp frame.pc) < code.length →
      instructionStart code (frame.pc + 1 + pushSize (frame.contract.GetOp frame.pc)) = true :=
    instructionStart_next (placed.start (placed.onCode ▸ within))
      (placed.onCode ▸ getElem?_GetOp within)
  have immediate := OpCode.immediate_ofByte decoded
  have movedPc := moved.pc
  simp only [Frame.charge_pc, Frame.charge_contract, kept.pc, kept.contract, placed.onCode,
    immediate] at movedPc
  refine ⟨by rw [contract, onCode], by rw [contract]; exact moved.analysed, ?_⟩
  -- A plain operation goes on after its data; a jump, there or at an instruction start.
  cases jumps : o.jumps <;> simp only [jumps, Bool.false_eq_true, if_false, if_true] at movedPc pc
  · rw [pc, movedPc]
    simpa [Nat.add_right_comm] using following
  · rcases movedPc with onward | start
    · rw [pc, onward]
      simpa [Nat.add_right_comm] using following
    · rw [pc]
      exact fun _ => start

/-- The frame a run starts from is placed on an analysed contract's code. -/
theorem start_placed {contract : Contract} (analysed : contract.Analysed) (Gas callGasTemp : UInt64)
    (state : S) : Placed contract.Code (EVMInterpreter.start contract Gas callGasTemp state) := by
  refine ⟨rfl, analysed, fun nonempty => ?_⟩
  cases shape : contract.Code with
  | nil => simp [shape] at nonempty
  | cons b rest => simp [EVMInterpreter.start, instructionStart, immediateData]

/--
Every frame `Run`'s loop reaches from the start of an analysed contract, in the interpreter
`NewEVMInterpreter` sets up for any chain rules, runs the contract's code with caches that are
analyses of it, at an instruction start of the code or past its end: the loop never executes a
byte of `PUSH` data as an opcode.
-/
theorem Run_frames_placed {evm : EVM S} {gasTable : GasTable} {readOnly : Bool}
    {inv : Invocation} {contract : Contract} {Gas callGasTemp : UInt64} {state : S}
    {frame : Frame S} (analysed : contract.Analysed)
    (reached : Loop.Reaches ((NewEVMInterpreter evm gasTable).step readOnly inv)
      (EVMInterpreter.start contract Gas callGasTemp state) frame) :
    Placed contract.Code frame :=
  reached.holds (fun placed stepped => step_placed placed stepped)
    (start_placed analysed Gas callGasTemp state)

/-- From the start of `PUSH1 3; JUMP; JUMPDEST`, two iterations reach the `JUMPDEST`, an
instruction start. -/
theorem Run_frames_placed_pushed_jump :
    ∃ frame, Loop.Reaches ((NewEVMInterpreter idleEVM zeroGasTable).step false
        ⟨FixedBytes.zero 20, FixedBytes.zero 20, 0, []⟩)
        (EVMInterpreter.start pushedJumpFrame.contract 100 0 ()) frame ∧
      frame.pc = 3 ∧ Placed pushedJumpFrame.contract.Code frame := by
  refine ⟨_, Loop.Reaches.tail (Loop.Reaches.tail (Loop.Reaches.refl _) rfl) rfl, rfl, ?_⟩
  exact @Run_frames_placed Unit idleEVM zeroGasTable false
    ⟨FixedBytes.zero 20, FixedBytes.zero 20, 0, []⟩ pushedJumpFrame.contract 100 0 () _
    pushedJumpFrame_analysed (Loop.Reaches.tail (Loop.Reaches.tail (Loop.Reaches.refl _) rfl) rfl)

/-! ## No iteration panics -/

/--
No iteration of `Run`'s loop panics, in the interpreter `NewEVMInterpreter` sets up for any chain
rules and gas table, on a frame whose contract's analyses are of its code and whose memory is
within the size `memoryGasCost` admits.
-/
theorem step_ok {evm : EVM S} {gasTable : GasTable} {readOnly : Bool} {inv : Invocation}
    {frame : Frame S} (analysed : frame.contract.Analysed) (small : frame.mem.Len ≤ 0xffffffffe0) :
    ∃ r, (NewEVMInterpreter evm gasTable).step readOnly inv frame = .ok r := by
  unfold EVMInterpreter.step
  dsimp only
  split
  · exact ⟨_, rfl⟩
  rename_i op o found
  obtain ⟨-, listed⟩ := NewEVMInterpreter_operationAt found
  obtain ⟨pops, pushes, sound⟩ := instructionSetFor_sound evm listed
  -- The checks: each one's failure is an error of the run, not a panic.
  refine Frame.checked_ok (sound.validate ▸ makeStackFunc_noPanic _ _ _) fun _ valid => ?_
  have enough := makeStackFunc_eq_ok (sound.validate ▸ valid)
  refine Frame.checked_ok (enforceRestrictions_noPanic fun call => by
    have := sound.restricts call
    omega) fun _ _ => ?_
  refine Frame.checked_ok (memorySizeOf_noPanic sound.sized enough) fun memorySize sized => ?_
  split
  · rename_i what failed
    exact absurd failed (sound.priced.runs _ _ _ _ _ enough what)
  · exact ⟨_, rfl⟩
  rename_i cost charged priced
  by_cases short : charged.Gas < cost
  · rw [if_pos short]
    exact ⟨_, rfl⟩
  rw [if_neg short]
  -- The operation runs on the charged frame, whose memory holds its ranges.
  have kept := sound.priced.keeps _ _ _ _ _ _ _ priced
  obtain ⟨grown, within⟩ := Frame.charge_mem_Len cost (kept.mem_Len ▸ small)
    (memorySizeOf_fits sound sized priced)
  split
  · rename_i what failed
    exact absurd failed (sound.runs _ _ _ (by simpa [kept.stack] using enough)
      (Frame.charge_covers kept sized grown) (by omega) (by simpa [kept.contract] using analysed)
      what)
  · exact ⟨_, rfl⟩
  · split_ifs <;> exact ⟨_, rfl⟩

/-! ## Every run finishes -/

/-- What every frame of a run of `code` keeps: it is placed on the code, and its memory is within
the size `memoryGasCost` admits. -/
structure Running (code : Bytes) (frame : Frame S) : Prop extends Placed code frame where
  small : frame.mem.Len ≤ 0xffffffffe0

/-- The frame a run starts from, with no memory, is running on an analysed contract's code. -/
theorem start_running {contract : Contract} (analysed : contract.Analysed)
    (Gas callGasTemp : UInt64) (state : S) :
    Running contract.Code (EVMInterpreter.start contract Gas callGasTemp state) :=
  ⟨start_placed analysed Gas callGasTemp state, by simp [EVMInterpreter.start, Memory.Len]⟩

/-- One iteration of `Run`'s loop keeps its frames running: the operation keeps the memory it was
charged for. -/
theorem step_running {evm : EVM S} {gasTable : GasTable} {readOnly : Bool} {inv : Invocation}
    {code : Bytes} {frame next : Frame S} (running : Running code frame)
    (stepped : (NewEVMInterpreter evm gasTable).step readOnly inv frame = .ok (.inl next)) :
    Running code next := by
  obtain ⟨_, _, _, _, _, cost, _, _, _, -, sound, -, sized, priced, -, kept, -, moved, -, -, mem, -,
    -⟩ := step_went running.analysed stepped
  have within := (Frame.charge_mem_Len cost (kept.mem_Len ▸ running.small)
    (memorySizeOf_fits sound sized priced)).2
  refine ⟨step_placed running.toPlaced stepped, ?_⟩
  -- The loop goes on with the operation's memory, which has the size of the charged one.
  rw [Memory.Len, mem, ← Memory.Len, moved.memory]
  exact within

/-- What is left of a run of `code`: the gas, each unit worth one more iteration than the code
has bytes, and the bytes before the end of the code. -/
def runMeasure (code : Bytes) (frame : Frame S) : Nat :=
  frame.Gas.toNat * (code.length + 1) + (code.length - frame.pc)

section Finishes

variable {evm : EVM S} {gasTable : GasTable}

/--
One iteration of `Run`'s loop that goes on lowers the measure, with nested calls that give back no
more gas than they are given and a call price far from wrapping: an operation that does not jump
moves forward in the code at no more gas, and a jump pays gas.
-/
theorem step_lowers (bounded : evm.Bounded) (sane : gasTable.Calls.toNat < 2 ^ 63)
    {readOnly : Bool} {inv : Invocation} {code : Bytes} {frame next : Frame S}
    (running : Running code frame)
    (stepped : (NewEVMInterpreter evm gasTable).step readOnly inv frame = .ok (.inl next)) :
    runMeasure code next < runMeasure code frame := by
  obtain ⟨op, o, _, _, _, _, _, after, _, decoded, sound, enough, -, priced, paid, kept, ran, moved,
    within, -, -, Gas, pc⟩ := step_went running.analysed stepped
  have spends := sound.spends gasTable sane _ _ _ _ _ _ _ _ bounded enough running.analysed priced
    paid ran
  have movedPc := moved.pc
  simp only [Frame.charge_pc, kept.pc, OpCode.immediate_ofByte decoded] at movedPc
  rw [running.onCode] at within
  unfold runMeasure
  rw [Gas]
  -- A plain operation moves past its byte at no more gas; a jump pays at least one unit.
  cases jumps : o.jumps <;>
    simp only [jumps, Bool.false_eq_true, if_false, if_true, Nat.add_zero] at spends movedPc pc
  · have cheaper := Nat.mul_le_mul_right (code.length + 1) (by omega : after.Gas.toNat ≤ _)
    omega
  · have cheaper := Nat.mul_le_mul_right (code.length + 1) spends
    rw [add_one_mul] at cheaper
    omega

end Finishes

/-- The loop of a run of `code`: its frames stay running on the code, and no iteration fails. -/
theorem step_invariant {evm : EVM S} {gasTable : GasTable} {readOnly : Bool} {inv : Invocation}
    {code : Bytes} :
    Loop.Invariant ((NewEVMInterpreter evm gasTable).step readOnly inv) (Running code)
      (fun out => ∃ r, out = .ok r) where
  continues running stepped := step_running running stepped
  finishes _ _ := ⟨_, rfl⟩
  fails running failed := by
    obtain ⟨r, ok⟩ :=
      @step_ok S evm gasTable readOnly inv _ running.analysed running.small
    rw [ok] at failed
    cases failed

/--
`Run` never panics, in the interpreter `NewEVMInterpreter` sets up for any chain rules, gas table
and nested calls, on an analysed contract: whatever the fuel, the loop returns data and an error
or nothing, never a panic.
-/
theorem Run_noPanic {evm : EVM S} {gasTable : GasTable} {fuel : Nat} {contract : Contract}
    (analysed : contract.Analysed) (Gas : UInt64) (inv : Invocation) (readOnly : Bool)
    (callGasTemp : UInt64) (state : S) {out : Outcome (Bytes × Option VmError × Frame S)}
    (ran : (NewEVMInterpreter evm gasTable).Run fuel contract Gas inv readOnly callGasTemp state =
      some out) :
    ∃ r, out = .ok r := by
  unfold EVMInterpreter.Run at ran
  split_ifs at ran
  · -- No code: nothing to run.
    cases ran
    exact ⟨_, rfl⟩
  · exact step_invariant.run fuel _ (start_running analysed Gas callGasTemp state) out ran

/-- Four iterations run `PUSH1 3; JUMP; JUMPDEST` to its end, with no panic. -/
theorem Run_noPanic_pushed_jump :
    ∃ out, (NewEVMInterpreter idleEVM zeroGasTable).Run 5 pushedJumpFrame.contract 100
        ⟨FixedBytes.zero 20, FixedBytes.zero 20, 0, []⟩ false 0 () = some out ∧ ∃ r, out = .ok r :=
  ⟨_, rfl, @Run_noPanic Unit idleEVM zeroGasTable 5 _ pushedJumpFrame_analysed 100
    ⟨FixedBytes.zero 20, FixedBytes.zero 20, 0, []⟩ false 0 () _ rfl⟩

/-- `idleEVM`'s nested calls and creations give back no gas. -/
theorem idleEVM_bounded : idleEVM.Bounded :=
  ⟨fun _ _ _ _ _ _ => UInt64.zero_le, fun _ _ _ _ _ _ => UInt64.zero_le,
    fun _ _ _ _ _ => UInt64.zero_le, fun _ _ _ _ _ => UInt64.zero_le,
    fun _ _ _ _ _ => UInt64.zero_le, fun _ _ _ _ _ _ => UInt64.zero_le⟩

/--
`Run` returns, in the interpreter `NewEVMInterpreter` sets up for any chain rules, on an analysed
contract, with nested calls that give back no more gas than they are given and a call price far
from wrapping: within `Gas * (length + 1) + length` iterations of its code the loop stops with
data and an error or none, never a panic.
-/
theorem Run_returns {evm : EVM S} {gasTable : GasTable} (bounded : evm.Bounded)
    (sane : gasTable.Calls.toNat < 2 ^ 63) {contract : Contract} (analysed : contract.Analysed)
    {Gas : UInt64} {fuel : Nat}
    (enough : Gas.toNat * (contract.Code.length + 1) + contract.Code.length < fuel)
    (inv : Invocation) (readOnly : Bool) (callGasTemp : UInt64) (state : S) :
    ∃ r, (NewEVMInterpreter evm gasTable).Run fuel contract Gas inv readOnly callGasTemp state =
      some (.ok r) := by
  unfold EVMInterpreter.Run
  split_ifs
  · exact ⟨_, rfl⟩
  -- The measure of the start is the bound: all the gas, and the whole code ahead.
  obtain ⟨out, ran, r, rfl⟩ := step_invariant.run_spec (runMeasure contract.Code)
    (step_lowers bounded sane) (start_running analysed Gas callGasTemp state)
    (by simpa [runMeasure, EVMInterpreter.start] using enough)
  exact ⟨r, ran⟩

/-- With 100 gas the four bytes of `PUSH1 3; JUMP; JUMPDEST` return within 505 iterations. -/
theorem Run_returns_pushed_jump :
    ∃ r, (NewEVMInterpreter idleEVM zeroGasTable).Run 505 pushedJumpFrame.contract 100
      ⟨FixedBytes.zero 20, FixedBytes.zero 20, 0, []⟩ false 0 () = some (.ok r) :=
  Run_returns idleEVM_bounded (by decide) pushedJumpFrame_analysed (by decide) _ _ _ _

end Vm

end Harmony
