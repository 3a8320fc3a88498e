import Harmony.Vm.Interpreter
import Harmony.Proofs.Vm.Machine
import Harmony.Proofs.Vm.Analysis

/-!
What the entries of the four instruction sets do to a frame, as the interpreter's loop relies on
it: an entry is `Sound` when its stack check asks for the items its parts read, its memory-size
and gas functions read only those items, its gas function keeps the frame, and its execution
cannot panic on a frame that passed the checks and moves the frame as its counts say.

The program counter an operation leaves is where the plain scan of `Harmony.Vm.instructionStart`
goes next: past a push's immediate data, or for a jump, at an instruction the analysis accepted.
-/

namespace Harmony

open Go

namespace Vm

variable {S : Type}

/-! ## Immediate data and instruction starts -/

/-- The bytes of immediate data after an opcode in the code: a `PUSHn`'s `n`. -/
def OpCode.immediate : OpCode → Nat
  | .PUSH n => n + 1
  | _ => 0

/-- The opcodes `opcodes.go` names outside the four numbered runs have no immediate data. -/
theorem OpCode.immediate_ofNamedByte {n : Nat} {op : OpCode} (decoded : OpCode.ofNamedByte n = some op) :
    op.immediate = 0 := by
  unfold OpCode.ofNamedByte at decoded
  split at decoded <;> first | (cases decoded; rfl) | cases decoded

/-- A decoded opcode has the immediate data the plain scan skips after its byte. -/
theorem OpCode.immediate_ofByte {b : UInt8} {op : OpCode} (decoded : OpCode.ofByte b = some op) :
    op.immediate = pushSize b := by
  unfold OpCode.ofByte at decoded
  split_ifs at decoded with push dup swap log
  · -- `PUSH1`..`PUSH32` carry one to 32 bytes.
    cases decoded
    simp only [OpCode.immediate, pushSize, if_pos push]
    omega
  all_goals
    have other : pushSize b = 0 := if_neg (by omega)
    rw [other]
  · cases decoded; rfl
  · cases decoded; rfl
  · cases decoded; rfl
  · exact OpCode.immediate_ofNamedByte decoded

/-- From a position the plain scan reads as an instruction, it reads on as it would from the start
of what is left. -/
theorem immediateData_drop_of_start {owed p : Nat} {code : Bytes}
    (start : (immediateData owed code)[p]? = some false) :
    (immediateData owed code).drop p = immediateData 0 (code.drop p) := by
  -- Induction on the code, with the debt and the position moving along it.
  induction code generalizing owed p with
  | nil => simp [immediateData] at start
  | cons op rest ih =>
    cases p with
    | zero =>
      -- An instruction starts here only when no push data is owed.
      cases owed with
      | zero => rfl
      | succ owed => simp [immediateData] at start
    | succ p =>
      cases owed with
      | zero => simpa [immediateData] using ih (by simpa [immediateData] using start)
      | succ owed => simpa [immediateData] using ih (by simpa [immediateData] using start)

/-- After the instruction at `p` and its push data, the plain scan is at the next instruction. -/
theorem instructionStart_next {code : Bytes} {p : Nat} {b : UInt8}
    (start : instructionStart code p = true) (found : code[p]? = some b)
    (within : p + 1 + pushSize b < code.length) :
    instructionStart code (p + 1 + pushSize b) = true := by
  have restart := immediateData_drop_of_start (by simpa [instructionStart] using start)
  rw [immediateData_drop_of_getElem? found] at restart
  -- Past the opcode the scan owes the push data, and after it restarts.
  have skipped := drop_immediateData (pushSize b) (code.drop (p + 1))
  have next : (immediateData 0 code)[p + 1 + pushSize b]? =
      (immediateData 0 ((code.drop (p + 1)).drop (pushSize b)))[0]? := by
    rw [show p + 1 + pushSize b = p + (1 + pushSize b) by omega, ← List.getElem?_drop, restart,
      ← skipped, List.getElem?_drop, Nat.add_comm 1, List.getElem?_cons_succ]
    simp
  obtain ⟨c, rest, left⟩ : ∃ c rest, (code.drop (p + 1)).drop (pushSize b) = c :: rest := by
    apply List.exists_cons_of_ne_nil
    simp only [List.drop_drop, ne_eq, List.drop_eq_nil_iff]
    omega
  simp [instructionStart, next, left, immediateData]

/-! ## What the loop relies on -/

/-- The frame's memory holds every range that an operation's memory-size function names. -/
def Covers (memorySize : Option (Stack → Exec Nat)) (frame : Frame S) : Prop :=
  ∀ size, memorySize = some size → ∀ n, size frame.stack = .ok n → n ≤ frame.mem.Len

/-- A memory-size function that reads only the operation's `pops` items. -/
def Sized (memorySize : Option (Stack → Exec Nat)) (pops : Nat) : Prop :=
  ∀ size, memorySize = some size → ∀ stack : Stack, pops ≤ stack.length → NoPanic (size stack)

/-- What a gas function keeps of the frame: all but the memory's recorded fee, the state and
`callGasTemp`. -/
structure Kept (frame after : Frame S) : Prop where
  contract : after.contract = frame.contract
  Gas : after.Gas = frame.Gas
  pc : after.pc = frame.pc
  stack : after.stack = frame.stack
  store : after.mem.store = frame.mem.store

theorem Kept.refl (frame : Frame S) : Kept frame frame := ⟨rfl, rfl, rfl, rfl, rfl⟩

theorem Kept.trans {frame middle after : Frame S} (first : Kept frame middle)
    (second : Kept middle after) : Kept frame after :=
  ⟨second.contract.trans first.contract, second.Gas.trans first.Gas, second.pc.trans first.pc,
    second.stack.trans first.stack, second.store.trans first.store⟩

/-- A gas function's frame has the memory size it was given. -/
theorem Kept.mem_Len {frame after : Frame S} (kept : Kept frame after) :
    after.mem.Len = frame.mem.Len := by
  simp only [Memory.Len, kept.store]

/--
A gas function that cannot panic on the operation's `pops` items, keeps the frame, and, for an
operation that touches memory, succeeds only for a size `memoryGasCost` admits.
-/
structure Priced (gasCost : GasFunc S) (memorySize : Option (Stack → Exec Nat)) (pops : Nat) :
    Prop where
  runs : ∀ gt evm inv (frame : Frame S) size, pops ≤ frame.stack.length →
    NoPanic (gasCost gt evm inv frame size)
  keeps : ∀ gt evm inv (frame : Frame S) size cost after,
    gasCost gt evm inv frame size = .ok (cost, after) → Kept frame after
  fits : ∀ gt evm inv (frame : Frame S) size cost after, memorySize.isSome →
    gasCost gt evm inv frame size = .ok (cost, after) → size.toNat ≤ 0xffffffffe0

/--
An execution that cannot panic once the stack holds the operation's `pops` items and the memory
its ranges, in a store below `2^63` bytes, on a contract whose analyses are of its code.
-/
def Runs (execute : ExecutionFunc S) (memorySize : Option (Stack → Exec Nat)) (pops : Nat) : Prop :=
  ∀ evm inv (frame : Frame S), pops ≤ frame.stack.length → Covers memorySize frame →
    frame.mem.Len < 2 ^ 63 → frame.contract.Analysed → NoPanic (execute evm inv frame)

/--
Where an operation leaves the frame: `pops` items replaced by `pushes`, the code, its analyses and
the memory's size kept, and the program counter on the last byte of the immediate data; a jump
goes on to the next instruction or to an instruction start.
-/
structure Moved (op : OpCode) (jumps : Bool) (pops pushes : Nat) (frame after : Frame S) : Prop where
  stack : after.stack.length + pops = frame.stack.length + pushes
  code : after.contract.Code = frame.contract.Code
  analysed : after.contract.Analysed
  memory : after.mem.Len = frame.mem.Len
  pc : if jumps then after.pc = frame.pc + op.immediate + 1 ∨
      instructionStart frame.contract.Code after.pc = true
    else after.pc = frame.pc + op.immediate

/-- An execution that moves every frame with the operation's items as `Moved` says. -/
def Moves (op : OpCode) (jumps : Bool) (execute : ExecutionFunc S) (pops pushes : Nat) : Prop :=
  ∀ evm inv (frame after : Frame S) res, pops ≤ frame.stack.length → frame.contract.Analysed →
    execute evm inv frame = .ok (after, res) → Moved op jumps pops pushes frame after

/-- The nested calls and creations of an EVM give back no more gas than they are given. -/
structure EVM.Bounded (evm : EVM S) : Prop where
  Call : ∀ s inv addr input gas value, (evm.Call s inv addr input gas value).leftOverGas ≤ gas
  CallCode : ∀ s inv addr input gas value,
    (evm.CallCode s inv addr input gas value).leftOverGas ≤ gas
  DelegateCall : ∀ s inv addr input gas, (evm.DelegateCall s inv addr input gas).leftOverGas ≤ gas
  StaticCall : ∀ s inv addr input gas, (evm.StaticCall s inv addr input gas).leftOverGas ≤ gas
  Create : ∀ s inv input gas value, (evm.Create s inv input gas value).leftOverGas ≤ gas
  Create2 : ∀ s inv input gas value salt,
    (evm.Create2 s inv input gas value salt).leftOverGas ≤ gas

/--
With nested calls that give back no more than they get, an operation's charge and execution
leave the contract no more gas than it had, and less when it jumps.
-/
def Spends (gasCost : GasFunc S) (execute : ExecutionFunc S) (jumps : Bool) (gasTable : GasTable)
    (pops : Nat) : Prop :=
  ∀ evm inv (frame : Frame S) memorySize cost charged after res, evm.Bounded →
    pops ≤ frame.stack.length → frame.contract.Analysed →
    gasCost gasTable evm inv frame memorySize = .ok (cost, charged) → cost ≤ charged.Gas →
    execute evm inv (charged.charge cost memorySize) = .ok (after, res) →
    after.Gas.toNat + (if jumps then 1 else 0) ≤ frame.Gas.toNat

/--
An entry of a jump table the interpreter's loop runs safely: its stack check asks for `pops` items
and room for `pushes`, `CALL`'s read-only check finds its value, `STOP` halts, and its memory
size, gas function and execution do what the loop relies on. The gas it spends is bounded for gas
tables whose call price is far from wrapping.
-/
structure Sound (op : OpCode) (o : operation S) (pops pushes : Nat) : Prop where
  validate : o.validateStack = makeStackFunc pops pushes
  restricts : op = .CALL → 3 ≤ pops
  stops : op = .STOP → o.halts = true
  sized : Sized o.memorySize pops
  priced : Priced o.gasCost o.memorySize pops
  runs : Runs o.execute o.memorySize pops
  moves : Moves op o.jumps o.execute pops pushes
  spends : ∀ gasTable : GasTable, gasTable.Calls.toNat < 2 ^ 63 →
    Spends o.gasCost o.execute o.jumps gasTable pops

/-! ## The frame's parts -/

@[simp] theorem Frame.charge_contract (frame : Frame S) (cost memorySize : UInt64) :
    (frame.charge cost memorySize).contract = frame.contract := rfl

@[simp] theorem Frame.charge_Gas (frame : Frame S) (cost memorySize : UInt64) :
    (frame.charge cost memorySize).Gas = frame.Gas - cost := rfl

@[simp] theorem Frame.charge_pc (frame : Frame S) (cost memorySize : UInt64) :
    (frame.charge cost memorySize).pc = frame.pc := rfl

@[simp] theorem Frame.charge_stack (frame : Frame S) (cost memorySize : UInt64) :
    (frame.charge cost memorySize).stack = frame.stack := rfl

@[simp] theorem Frame.charge_callGasTemp (frame : Frame S) (cost memorySize : UInt64) :
    (frame.charge cost memorySize).callGasTemp = frame.callGasTemp := rfl

/-! ## Gas functions -/

/-- `memoryGasCost` succeeds only for sizes it admits, and changes only the recorded fee. -/
theorem memoryGasCost_admits {mem mem' : Memory} {size fee : UInt64}
    (priced : Vm.memoryGasCost mem size = .ok (fee, mem')) :
    size.toNat ≤ 0xffffffffe0 ∧ mem'.store = mem.store := by
  unfold Vm.memoryGasCost at priced
  dsimp only at priced
  split_ifs at priced with empty refused
  · cases priced
    simp [empty]
  all_goals
    simp only [Except.ok.injEq, Prod.mk.injEq] at priced
    obtain ⟨-, rfl⟩ := priced
    exact ⟨by simpa [UInt64.lt_iff_toNat_lt] using refused, rfl⟩

theorem Frame.memoryGasCost_eq_ok {frame after : Frame S} {size fee : UInt64}
    (priced : frame.memoryGasCost size = .ok (fee, after)) :
    size.toNat ≤ 0xffffffffe0 ∧ Kept frame after := by
  unfold Frame.memoryGasCost at priced
  split at priced
  · cases priced
  · rename_i mem charged
    simp only [pure, Except.pure, Except.ok.injEq, Prod.mk.injEq] at priced
    obtain ⟨-, rfl⟩ := priced
    obtain ⟨admitted, store⟩ := Vm.memoryGasCost_admits charged
    exact ⟨admitted, rfl, rfl, rfl, rfl, store⟩

@[simp] theorem Frame.memoryGasCost_noPanic (frame : Frame S) (size : UInt64) :
    NoPanic (frame.memoryGasCost size) := by
  unfold Frame.memoryGasCost
  split <;> simp

@[simp] theorem checkedAdd_noPanic (x y : UInt64) : NoPanic (checkedAdd x y) := by
  simp [checkedAdd]

@[simp] theorem checkedMul_noPanic (x y : UInt64) : NoPanic (checkedMul x y) := by
  simp [checkedMul]

@[simp] theorem checkedUint64_noPanic (v : Nat) : NoPanic (checkedUint64 v) := by
  simp [checkedUint64]

/-- A checked sum is the sum of the two numbers. -/
theorem checkedAdd_eq_ok {x y z : UInt64} (added : checkedAdd x y = .ok z) :
    z.toNat = x.toNat + y.toNat := by
  unfold checkedAdd SafeAdd at added
  dsimp only at added
  -- An overflowing sum is an error, so the sum returned did not wrap.
  split_ifs at added with overflow
  cases added
  have bounded := UInt64.toNat_lt x
  simp only [decide_eq_true_eq, gt_iff_lt, UInt64.lt_iff_toNat_lt, not_lt] at overflow
  rw [UInt64.toNat_sub_of_le _ _ (UInt64.le_iff_toNat_le.mpr (by simp; omega))] at overflow
  rw [UInt64.toNat_add]
  simp only [UInt64.reduceToNat] at overflow
  omega

theorem priced_constGasFunc (gas : UInt64) (pops : Nat) :
    Priced (constGasFunc gas : GasFunc S) none pops where
  runs _ _ _ _ _ _ := NoPanic.ok _
  keeps _ _ _ frame _ _ _ priced := by
    cases priced
    exact Kept.refl frame
  fits _ _ _ _ _ _ _ touches := by simp at touches

theorem priced_tableGas (price : GasTable → UInt64) (pops : Nat) :
    Priced (tableGas price : GasFunc S) none pops where
  runs _ _ _ _ _ _ := NoPanic.ok _
  keeps _ _ _ frame _ _ _ priced := by
    cases priced
    exact Kept.refl frame
  fits _ _ _ _ _ _ _ touches := by simp at touches

@[simp] theorem callGas_noPanic (gasTable : GasTable) (availableGas base : UInt64) (callCost : Nat) :
    NoPanic (callGas gasTable availableGas base callCost) := by
  unfold callGas
  dsimp only
  split_ifs <;> simp

/-- The gas functions that charge the memory fee first and return the frame it left. -/
theorem kept_of_memoryGasCost {frame charged after : Frame S} {size fee : UInt64}
    (charging : frame.memoryGasCost size = .ok (fee, charged)) (same : after = charged) :
    size.toNat ≤ 0xffffffffe0 ∧ Kept frame after := by
  subst same
  exact Frame.memoryGasCost_eq_ok charging

theorem priced_copierGas (base : GasTable → UInt64) (index : Nat) (wordGas : UInt64)
    (memorySize : Option (Stack → Exec Nat)) {pops : Nat} (within : index < pops) :
    Priced (copierGas base index wordGas : GasFunc S) memorySize pops where
  runs _ _ _ frame _ enough := by
    unfold copierGas
    refine NoPanic.bind (by simp) fun ⟨fee, charged⟩ charging => ?_
    -- The memory fee keeps the stack, from which the copied size is read.
    have kept := (Frame.memoryGasCost_eq_ok charging).2
    refine NoPanic.bind (by simp) fun gas _ => ?_
    refine NoPanic.bind (Stack.Back_noPanic (by rw [kept.stack]; omega)) fun size _ => ?_
    simp
  keeps _ _ _ _ _ _ _ priced := by
    simp only [copierGas, Exec.bind_eq_ok, Exec.pure_eq_ok, Prod.mk.injEq] at priced
    obtain ⟨⟨fee, charged⟩, charging, -, -, -, -, -, -, -, -, -, -, -, same⟩ := priced
    exact (kept_of_memoryGasCost charging same.symm).2
  fits _ _ _ _ _ _ _ _ priced := by
    simp only [copierGas, Exec.bind_eq_ok, Exec.pure_eq_ok, Prod.mk.injEq] at priced
    obtain ⟨⟨fee, charged⟩, charging, -, -, -, -, -, -, -, -, -, -, -, same⟩ := priced
    exact (kept_of_memoryGasCost charging same.symm).1

theorem priced_memoryStepGas (price : UInt64) (memorySize : Option (Stack → Exec Nat)) (pops : Nat) :
    Priced (memoryStepGas price : GasFunc S) memorySize pops where
  runs _ _ _ _ _ _ := by simp [memoryStepGas]
  keeps _ _ _ _ _ _ _ priced := by
    simp only [memoryStepGas, Exec.bind_eq_ok, Exec.pure_eq_ok, Prod.mk.injEq] at priced
    obtain ⟨⟨fee, charged⟩, charging, -, -, -, same⟩ := priced
    exact (kept_of_memoryGasCost charging same.symm).2
  fits _ _ _ _ _ _ _ _ priced := by
    simp only [memoryStepGas, Exec.bind_eq_ok, Exec.pure_eq_ok, Prod.mk.injEq] at priced
    obtain ⟨⟨fee, charged⟩, charging, -, -, -, same⟩ := priced
    exact (kept_of_memoryGasCost charging same.symm).1

/-- `gasRevert` is the memory fee alone. -/
theorem priced_gasRevert (memorySize : Option (Stack → Exec Nat)) (pops : Nat) :
    Priced (gasRevert : GasFunc S) memorySize pops where
  runs _ _ _ _ _ _ := by simp [gasRevert]
  keeps _ _ _ _ _ _ _ priced := (Frame.memoryGasCost_eq_ok priced).2
  fits _ _ _ _ _ _ _ _ priced := (Frame.memoryGasCost_eq_ok priced).1

theorem priced_makeGasLog (n : Nat) (memorySize : Option (Stack → Exec Nat)) :
    Priced (makeGasLog n : GasFunc S) memorySize (n + 2) where
  runs _ _ _ frame _ enough := by
    unfold makeGasLog
    refine NoPanic.bind (Stack.Back_noPanic (by omega)) fun requested _ => ?_
    refine NoPanic.bind (by simp) fun _ _ => ?_
    refine NoPanic.bind (by simp) fun ⟨fee, charged⟩ _ => ?_
    simp
  keeps _ _ _ _ _ _ _ priced := by
    simp only [makeGasLog, Exec.bind_eq_ok, Exec.pure_eq_ok, Prod.mk.injEq] at priced
    obtain ⟨-, -, -, -, ⟨fee, charged⟩, charging, -, -, -, -, -, -, -, -, -, same⟩ := priced
    exact (kept_of_memoryGasCost charging same.symm).2
  fits _ _ _ _ _ _ _ _ priced := by
    simp only [makeGasLog, Exec.bind_eq_ok, Exec.pure_eq_ok, Prod.mk.injEq] at priced
    obtain ⟨-, -, -, -, ⟨fee, charged⟩, charging, -, -, -, -, -, -, -, -, -, same⟩ := priced
    exact (kept_of_memoryGasCost charging same.symm).1

theorem priced_gasExp : Priced (gasExp : GasFunc S) none 2 where
  runs _ _ _ _ _ enough := by
    unfold gasExp
    refine NoPanic.bind (Stack.Back_noPanic (by omega)) fun exponent _ => ?_
    simp
  keeps _ _ _ frame _ _ _ priced := by
    simp only [gasExp, Exec.bind_eq_ok, Exec.pure_eq_ok, Prod.mk.injEq] at priced
    obtain ⟨-, -, -, -, -, rfl⟩ := priced
    exact Kept.refl frame
  fits _ _ _ _ _ _ _ touches := by simp at touches

theorem priced_gasSStore : Priced (gasSStore : GasFunc S) none 2 where
  runs _ _ _ _ _ enough := by
    unfold gasSStore
    refine NoPanic.bind (Stack.Back_noPanic (by omega)) fun y _ => ?_
    refine NoPanic.bind (Stack.Back_noPanic (by omega)) fun x _ => ?_
    dsimp only
    split_ifs <;> simp
  keeps _ _ _ frame _ _ _ priced := by
    -- Every branch returns the frame with its state's refunds moved, if at all.
    simp only [gasSStore, Exec.bind_eq_ok] at priced
    obtain ⟨y, -, x, -, priced⟩ := priced
    split_ifs at priced <;>
      simp only [Exec.pure_eq_ok, Prod.mk.injEq] at priced <;>
      obtain ⟨-, rfl⟩ := priced <;>
      exact ⟨rfl, rfl, rfl, rfl, rfl⟩
  fits _ _ _ _ _ _ _ touches := by simp at touches

/-- The gas functions of the calls return the memory fee's frame with `callGasTemp` set. -/
theorem kept_of_callGasTemp {frame charged after : Frame S} {size fee callGasTemp : UInt64}
    (charging : frame.memoryGasCost size = .ok (fee, charged))
    (same : after = { charged with callGasTemp }) :
    size.toNat ≤ 0xffffffffe0 ∧ Kept frame after := by
  subst same
  obtain ⟨admitted, kept⟩ := Frame.memoryGasCost_eq_ok charging
  exact ⟨admitted, kept.trans ⟨rfl, rfl, rfl, rfl, rfl⟩⟩

theorem priced_gasCall (memorySize : Option (Stack → Exec Nat)) :
    Priced (gasCall : GasFunc S) memorySize 7 where
  runs _ _ _ frame _ enough := by
    unfold gasCall
    refine NoPanic.bind (Stack.Back_noPanic (by omega)) fun value _ => ?_
    refine NoPanic.bind (Stack.Back_noPanic (by omega)) fun address _ => ?_
    refine NoPanic.bind (by simp) fun ⟨memoryGas, charged⟩ charging => ?_
    -- The gas asked for is read from the stack the memory fee kept.
    have kept := (Frame.memoryGasCost_eq_ok charging).2
    refine NoPanic.bind (by simp) fun gas _ => ?_
    refine NoPanic.bind (Stack.Back_noPanic (by rw [kept.stack]; omega)) fun asked _ => ?_
    simp
  keeps _ _ _ _ _ _ _ priced := by
    simp only [gasCall, Exec.bind_eq_ok, Exec.pure_eq_ok, Prod.mk.injEq] at priced
    obtain ⟨-, -, -, -, ⟨fee, charged⟩, charging, -, -, -, -, cgt, -, -, -, -, same⟩ := priced
    exact (kept_of_callGasTemp charging same.symm).2
  fits _ _ _ _ _ _ _ _ priced := by
    simp only [gasCall, Exec.bind_eq_ok, Exec.pure_eq_ok, Prod.mk.injEq] at priced
    obtain ⟨-, -, -, -, ⟨fee, charged⟩, charging, -, -, -, -, cgt, -, -, -, -, same⟩ := priced
    exact (kept_of_callGasTemp charging same.symm).1

theorem priced_gasCallCode (memorySize : Option (Stack → Exec Nat)) :
    Priced (gasCallCode : GasFunc S) memorySize 7 where
  runs _ _ _ frame _ enough := by
    unfold gasCallCode
    refine NoPanic.bind (Stack.Back_noPanic (by omega)) fun value _ => ?_
    refine NoPanic.bind (by simp) fun ⟨memoryGas, charged⟩ charging => ?_
    have kept := (Frame.memoryGasCost_eq_ok charging).2
    refine NoPanic.bind (by simp) fun gas _ => ?_
    refine NoPanic.bind (Stack.Back_noPanic (by rw [kept.stack]; omega)) fun asked _ => ?_
    simp
  keeps _ _ _ _ _ _ _ priced := by
    simp only [gasCallCode, Exec.bind_eq_ok, Exec.pure_eq_ok, Prod.mk.injEq] at priced
    obtain ⟨-, -, ⟨fee, charged⟩, charging, -, -, -, -, cgt, -, -, -, -, same⟩ := priced
    exact (kept_of_callGasTemp charging same.symm).2
  fits _ _ _ _ _ _ _ _ priced := by
    simp only [gasCallCode, Exec.bind_eq_ok, Exec.pure_eq_ok, Prod.mk.injEq] at priced
    obtain ⟨-, -, ⟨fee, charged⟩, charging, -, -, -, -, cgt, -, -, -, -, same⟩ := priced
    exact (kept_of_callGasTemp charging same.symm).1

theorem priced_gasDelegateCall (memorySize : Option (Stack → Exec Nat)) :
    Priced (gasDelegateCall : GasFunc S) memorySize 6 where
  runs _ _ _ frame _ enough := by
    unfold gasDelegateCall
    refine NoPanic.bind (by simp) fun ⟨memoryGas, charged⟩ charging => ?_
    have kept := (Frame.memoryGasCost_eq_ok charging).2
    refine NoPanic.bind (by simp) fun gas _ => ?_
    refine NoPanic.bind (Stack.Back_noPanic (by rw [kept.stack]; omega)) fun asked _ => ?_
    simp
  keeps _ _ _ _ _ _ _ priced := by
    simp only [gasDelegateCall, Exec.bind_eq_ok, Exec.pure_eq_ok, Prod.mk.injEq] at priced
    obtain ⟨⟨fee, charged⟩, charging, -, -, -, -, cgt, -, -, -, -, same⟩ := priced
    exact (kept_of_callGasTemp charging same.symm).2
  fits _ _ _ _ _ _ _ _ priced := by
    simp only [gasDelegateCall, Exec.bind_eq_ok, Exec.pure_eq_ok, Prod.mk.injEq] at priced
    obtain ⟨⟨fee, charged⟩, charging, -, -, -, -, cgt, -, -, -, -, same⟩ := priced
    exact (kept_of_callGasTemp charging same.symm).1

theorem priced_gasSuicide : Priced (gasSuicide : GasFunc S) none 1 where
  runs _ evm _ _ _ enough := by
    unfold gasSuicide
    dsimp only
    -- Only EIP-150's price reads the beneficiary.
    split
    · refine NoPanic.bind (Stack.Back_noPanic (by omega)) fun _ _ => ?_
      simp
    · simp
  keeps _ evm _ frame _ _ _ priced := by
    unfold gasSuicide at priced
    dsimp only at priced
    split at priced <;> simp [Prod.mk.injEq] at priced
    · obtain ⟨-, -, -, rfl⟩ := priced
      exact ⟨rfl, rfl, rfl, rfl, rfl⟩
    · obtain ⟨-, rfl⟩ := priced
      exact ⟨rfl, rfl, rfl, rfl, rfl⟩
  fits _ _ _ _ _ _ _ touches := by simp at touches

/-! ## Memory sizes -/

theorem sized_none (pops : Nat) : Sized none pops := by
  rintro _ ⟨⟩

theorem sized_memoryRange {offsetAt sizeAt pops : Nat} (offset : offsetAt < pops)
    (size : sizeAt < pops) : Sized (some (memoryRange offsetAt sizeAt)) pops := by
  rintro _ ⟨⟩ stack enough
  simp [memoryRange, Stack.Back_noPanic (show offsetAt < stack.length by omega),
    Stack.Back_noPanic (show sizeAt < stack.length by omega)]

theorem sized_memoryFixed (size : Nat) {pops : Nat} (positive : 0 < pops) :
    Sized (some (memoryFixed size)) pops := by
  rintro _ ⟨⟩ stack enough
  simp [memoryFixed, Stack.Back_noPanic (show 0 < stack.length by omega)]

theorem sized_memoryCalls {retAt argsAt pops : Nat} (ret : retAt + 1 < pops) (args : argsAt + 1 < pops) :
    Sized (some (memoryCalls retAt argsAt)) pops := by
  rintro _ ⟨⟩ stack enough
  simp [memoryCalls, memoryRange, Stack.Back_noPanic (show retAt < stack.length by omega),
    Stack.Back_noPanic (show retAt + 1 < stack.length by omega),
    Stack.Back_noPanic (show argsAt < stack.length by omega),
    Stack.Back_noPanic (show argsAt + 1 < stack.length by omega)]

/-- A range named by two items lies inside a covering memory. -/
theorem Covers.range {frame : Frame S} {offsetAt sizeAt off l : Nat}
    (covers : Covers (some (memoryRange offsetAt sizeAt)) frame)
    (offset : frame.stack[offsetAt]? = some off) (size : frame.stack[sizeAt]? = some l) :
    calcMemSize off l ≤ frame.mem.Len :=
  covers _ rfl _ (by simp [memoryRange, Stack.Back, offset, size, pure, Except.pure])

/-- A range of fixed size at the top item lies inside a covering memory. -/
theorem Covers.fixed {frame : Frame S} {size off : Nat} (covers : Covers (some (memoryFixed size)) frame)
    (offset : frame.stack[0]? = some off) : calcMemSize off size ≤ frame.mem.Len :=
  covers _ rfl _ (by simp [memoryFixed, Stack.Back, offset, pure, Except.pure])

/-- Both ranges of a call lie inside a covering memory. -/
theorem Covers.calls {frame : Frame S} {retAt argsAt retOffset retSize inOffset inSize : Nat}
    (covers : Covers (some (memoryCalls retAt argsAt)) frame)
    (retOffsetAt : frame.stack[retAt]? = some retOffset)
    (retSizeAt : frame.stack[retAt + 1]? = some retSize)
    (inOffsetAt : frame.stack[argsAt]? = some inOffset)
    (inSizeAt : frame.stack[argsAt + 1]? = some inSize) :
    calcMemSize retOffset retSize ≤ frame.mem.Len ∧ calcMemSize inOffset inSize ≤ frame.mem.Len := by
  have larger := covers _ rfl (max (calcMemSize retOffset retSize) (calcMemSize inOffset inSize)) (by
    simp [memoryCalls, memoryRange, Stack.Back, retOffsetAt, retSizeAt, inOffsetAt, inSizeAt, pure,
      Except.pure])
  exact ⟨le_trans (le_max_left _ _) larger, le_trans (le_max_right _ _) larger⟩

/-! ## Executions that keep the gas -/

/-- An execution that cannot panic on its items and ranges, moves the frame as its counts say,
and keeps the contract's gas: every one but the calls' and the creations'. -/
structure Keeps (op : OpCode) (jumps : Bool) (execute : ExecutionFunc S)
    (memorySize : Option (Stack → Exec Nat)) (pops pushes : Nat) : Prop where
  runs : Runs execute memorySize pops
  moves : ∀ evm inv (frame after : Frame S) res, pops ≤ frame.stack.length →
    frame.contract.Analysed → execute evm inv frame = .ok (after, res) →
    Moved op jumps pops pushes frame after ∧ after.Gas = frame.Gas

/-- An operation that changes only the stack, the memory's bytes, the state and the gas. -/
theorem Moved.plain {op : OpCode} (plain : op.immediate = 0) {frame after : Frame S}
    {pops pushes : Nat} (analysed : frame.contract.Analysed)
    (stack : after.stack.length + pops = frame.stack.length + pushes)
    (contract : after.contract = frame.contract) (pc : after.pc = frame.pc)
    (memory : after.mem.Len = frame.mem.Len) : Moved op false pops pushes frame after :=
  ⟨stack, by rw [contract], contract ▸ analysed, memory, by simp [pc, plain]⟩

/-- An operation that changes only the stack, the memory's bytes and the state. -/
theorem moved_of_update {op : OpCode} (plain : op.immediate = 0) {frame after : Frame S}
    {pops pushes : Nat} (analysed : frame.contract.Analysed)
    (stack : after.stack.length + pops = frame.stack.length + pushes)
    (contract : after.contract = frame.contract) (pc : after.pc = frame.pc)
    (memory : after.mem.Len = frame.mem.Len) (gas : after.Gas = frame.Gas) :
    Moved op false pops pushes frame after ∧ after.Gas = frame.Gas :=
  ⟨Moved.plain plain analysed stack contract pc memory, gas⟩

theorem keeps_binaryOp (f : Nat → Nat → Nat) {op : OpCode} (plain : op.immediate = 0) :
    Keeps op false (binaryOp f : ExecutionFunc S) none 2 1 where
  runs _ _ frame enough _ _ _ := by
    rcases shape : frame.stack with _ | ⟨x, _ | ⟨y, rest⟩⟩ <;> simp [shape] at enough
    simp [binaryOp, shape]
  moves _ _ frame _ _ enough analysed ran := by
    rcases shape : frame.stack with _ | ⟨x, _ | ⟨y, rest⟩⟩ <;> simp [shape] at enough
    simp [binaryOp, shape] at ran
    obtain ⟨rfl, -⟩ := ran
    exact moved_of_update plain analysed (by simp [shape]) rfl rfl rfl rfl

theorem keeps_ternaryOp (f : Nat → Nat → Nat → Nat) {op : OpCode} (plain : op.immediate = 0) :
    Keeps op false (ternaryOp f : ExecutionFunc S) none 3 1 where
  runs _ _ frame enough _ _ _ := by
    rcases shape : frame.stack with _ | ⟨x, _ | ⟨y, _ | ⟨z, rest⟩⟩⟩ <;> simp [shape] at enough
    simp [ternaryOp, shape]
  moves _ _ frame _ _ enough analysed ran := by
    rcases shape : frame.stack with _ | ⟨x, _ | ⟨y, _ | ⟨z, rest⟩⟩⟩ <;> simp [shape] at enough
    simp [ternaryOp, shape] at ran
    obtain ⟨rfl, -⟩ := ran
    exact moved_of_update plain analysed (by simp [shape]) rfl rfl rfl rfl

theorem keeps_peekOp (f : EVM S → Invocation → Frame S → Nat → Nat) {op : OpCode}
    (plain : op.immediate = 0) : Keeps op false (peekOp f) none 1 1 where
  runs _ _ frame enough _ _ _ := by
    rcases shape : frame.stack with _ | ⟨x, rest⟩ <;> simp [shape] at enough
    simp [peekOp, shape]
  moves _ _ frame _ _ enough analysed ran := by
    rcases shape : frame.stack with _ | ⟨x, rest⟩ <;> simp [shape] at enough
    simp [peekOp, shape] at ran
    obtain ⟨rfl, -⟩ := ran
    exact moved_of_update plain analysed (by simp [shape]) rfl rfl rfl rfl

theorem keeps_pushOp (value : EVM S → Invocation → Frame S → Nat) {op : OpCode}
    (plain : op.immediate = 0) : Keeps op false (pushOp value) none 0 1 where
  runs _ _ _ _ _ _ _ := by simp [pushOp]
  moves _ _ frame _ _ _ analysed ran := by
    simp [pushOp] at ran
    obtain ⟨rfl, -⟩ := ran
    exact moved_of_update plain analysed (by simp) rfl rfl rfl rfl

/-- `SIGNEXTEND` leaves one item for its two, whether it pops the number or leaves it in place. -/
theorem keeps_opSignExtend : Keeps .SIGNEXTEND false (opSignExtend : ExecutionFunc S) none 2 1 where
  runs _ _ frame enough _ _ _ := by
    rcases shape : frame.stack with _ | ⟨back, _ | ⟨num, rest⟩⟩ <;> simp [shape] at enough
    simp [opSignExtend, shape]
  moves _ _ frame _ _ enough analysed ran := by
    rcases shape : frame.stack with _ | ⟨back, _ | ⟨num, rest⟩⟩ <;> simp [shape] at enough
    simp only [opSignExtend, shape, Stack.pop_cons, Exec.ok_bind] at ran
    split at ran
    · simp at ran
      obtain ⟨rfl, -⟩ := ran
      exact moved_of_update rfl analysed (by simp [shape]) rfl rfl rfl rfl
    · simp at ran
      obtain ⟨rfl, -⟩ := ran
      exact moved_of_update rfl analysed (by simp [shape]) rfl rfl rfl rfl

theorem keeps_opPop : Keeps .POP false (opPop : ExecutionFunc S) none 1 0 where
  runs _ _ frame enough _ _ _ := by
    rcases shape : frame.stack with _ | ⟨x, rest⟩ <;> simp [shape] at enough
    simp [opPop, shape]
  moves _ _ frame _ _ enough analysed ran := by
    rcases shape : frame.stack with _ | ⟨x, rest⟩ <;> simp [shape] at enough
    simp [opPop, shape] at ran
    obtain ⟨rfl, -⟩ := ran
    exact moved_of_update rfl analysed (by simp [shape]) rfl rfl rfl rfl

/-- `opStop` and `opJumpdest` leave the frame as it is. -/
theorem keeps_opStop {op : OpCode} (plain : op.immediate = 0) :
    Keeps op false (opStop : ExecutionFunc S) none 0 0 where
  runs _ _ _ _ _ _ _ := by simp [opStop]
  moves _ _ frame _ _ _ analysed ran := by
    simp [opStop] at ran
    obtain ⟨rfl, -⟩ := ran
    exact moved_of_update plain analysed rfl rfl rfl rfl rfl

/-! ## Executions that touch memory -/

theorem keeps_opSha3 : Keeps .SHA3 false (opSha3 : ExecutionFunc S) (some memorySha3) 2 1 where
  runs _ _ frame enough covers small _ := by
    rcases shape : frame.stack with _ | ⟨offset, _ | ⟨size, rest⟩⟩ <;> simp [shape] at enough
    have range := covers.range (by simp [shape] : frame.stack[0]? = some offset)
      (by simp [shape] : frame.stack[1]? = some size)
    simp [opSha3, shape, Memory.Get_noPanic range small]
  moves _ _ frame _ _ enough analysed ran := by
    rcases shape : frame.stack with _ | ⟨offset, _ | ⟨size, rest⟩⟩ <;> simp [shape] at enough
    simp [opSha3, shape] at ran
    obtain ⟨data, -, rfl, -⟩ := ran
    exact moved_of_update rfl analysed (by simp [shape]) rfl rfl rfl rfl

/-- The copies into memory: `CALLDATACOPY` and `CODECOPY` write their third item's length of
bytes at their first item. -/
theorem keeps_opCallDataCopy :
    Keeps .CALLDATACOPY false (opCallDataCopy : ExecutionFunc S) (some memoryCallDataCopy) 3 0 where
  runs _ _ frame enough covers small _ := by
    rcases shape : frame.stack with _ | ⟨memOffset, _ | ⟨dataOffset, _ | ⟨length, rest⟩⟩⟩ <;>
      simp [shape] at enough
    have range := covers.range (by simp [shape] : frame.stack[0]? = some memOffset)
      (by simp [shape] : frame.stack[2]? = some length)
    simp [opCallDataCopy, shape, Memory.Set_noPanic _ range small]
  moves _ _ frame _ _ enough analysed ran := by
    rcases shape : frame.stack with _ | ⟨memOffset, _ | ⟨dataOffset, _ | ⟨length, rest⟩⟩⟩ <;>
      simp [shape] at enough
    simp [opCallDataCopy, shape] at ran
    obtain ⟨mem, writing, rfl, -⟩ := ran
    exact moved_of_update rfl analysed (by simp [shape]) rfl rfl (Memory.Len_of_Set writing) rfl

theorem keeps_opCodeCopy :
    Keeps .CODECOPY false (opCodeCopy : ExecutionFunc S) (some memoryCodeCopy) 3 0 where
  runs _ _ frame enough covers small _ := by
    rcases shape : frame.stack with _ | ⟨memOffset, _ | ⟨codeOffset, _ | ⟨length, rest⟩⟩⟩ <;>
      simp [shape] at enough
    have range := covers.range (by simp [shape] : frame.stack[0]? = some memOffset)
      (by simp [shape] : frame.stack[2]? = some length)
    simp [opCodeCopy, shape, Memory.Set_noPanic _ range small]
  moves _ _ frame _ _ enough analysed ran := by
    rcases shape : frame.stack with _ | ⟨memOffset, _ | ⟨codeOffset, _ | ⟨length, rest⟩⟩⟩ <;>
      simp [shape] at enough
    simp [opCodeCopy, shape] at ran
    obtain ⟨mem, writing, rfl, -⟩ := ran
    exact moved_of_update rfl analysed (by simp [shape]) rfl rfl (Memory.Len_of_Set writing) rfl

theorem keeps_opExtCodeCopy :
    Keeps .EXTCODECOPY false (opExtCodeCopy : ExecutionFunc S) (some memoryExtCodeCopy) 4 0 where
  runs _ _ frame enough covers small _ := by
    rcases shape : frame.stack with
      _ | ⟨addr, _ | ⟨memOffset, _ | ⟨codeOffset, _ | ⟨length, rest⟩⟩⟩⟩ <;> simp [shape] at enough
    have range := covers.range (by simp [shape] : frame.stack[1]? = some memOffset)
      (by simp [shape] : frame.stack[3]? = some length)
    simp [opExtCodeCopy, shape, Memory.Set_noPanic _ range small]
  moves _ _ frame _ _ enough analysed ran := by
    rcases shape : frame.stack with
      _ | ⟨addr, _ | ⟨memOffset, _ | ⟨codeOffset, _ | ⟨length, rest⟩⟩⟩⟩ <;> simp [shape] at enough
    simp [opExtCodeCopy, shape] at ran
    obtain ⟨mem, writing, rfl, -⟩ := ran
    exact moved_of_update rfl analysed (by simp [shape]) rfl rfl (Memory.Len_of_Set writing) rfl

/-- `RETURNDATACOPY` refuses a range past the return data before it slices it, so the slice is in
range. -/
theorem keeps_opReturnDataCopy :
    Keeps .RETURNDATACOPY false (opReturnDataCopy : ExecutionFunc S) (some memoryReturnDataCopy) 3 0 where
  runs _ _ frame enough covers small _ := by
    rcases shape : frame.stack with _ | ⟨memOffset, _ | ⟨dataOffset, _ | ⟨length, rest⟩⟩⟩ <;>
      simp [shape] at enough
    have range := covers.range (by simp [shape] : frame.stack[0]? = some memOffset)
      (by simp [shape] : frame.stack[2]? = some length)
    simp [opReturnDataCopy, shape]
    intro narrow inside
    -- A range of at most 64 bits does not wrap, and the check put it inside the return data.
    have fits : dataOffset + length < 2 ^ 64 := Nat.size_le.mp (by omega)
    have last := Nat.mod_eq_of_lt (by omega : dataOffset + length < 18446744073709551616)
    rw [last] at inside
    rw [last, Nat.mod_eq_of_lt (by omega : dataOffset < 18446744073709551616),
      slice?_of_le (by omega) inside]
    simp [Memory.Set_noPanic _ range small]
  moves _ _ frame _ _ enough analysed ran := by
    rcases shape : frame.stack with _ | ⟨memOffset, _ | ⟨dataOffset, _ | ⟨length, rest⟩⟩⟩ <;>
      simp [shape] at enough
    simp [opReturnDataCopy, shape] at ran
    split_ifs at ran
    split at ran
    · simp at ran
    · simp at ran
      obtain ⟨mem, writing, rfl, -⟩ := ran
      exact moved_of_update rfl analysed (by simp [shape]) rfl rfl (Memory.Len_of_Set writing) rfl

theorem keeps_opMload : Keeps .MLOAD false (opMload : ExecutionFunc S) (some memoryMLoad) 1 1 where
  runs _ _ frame enough covers small _ := by
    rcases shape : frame.stack with _ | ⟨offset, rest⟩ <;> simp [shape] at enough
    have fixed := covers.fixed (by simp [shape] : frame.stack[0]? = some offset)
    -- The read's size is the literal 32, which is its own `int64`.
    have reading : NoPanic (frame.mem.Get (toInt64 offset) (toInt64 32)) :=
      Memory.Get_noPanic fixed small
    simp only [toInt64_of_lt (by norm_num : 32 < 2 ^ 63), Nat.cast_ofNat] at reading
    simp [opMload, shape, reading]
  moves _ _ frame _ _ enough analysed ran := by
    rcases shape : frame.stack with _ | ⟨offset, rest⟩ <;> simp [shape] at enough
    simp [opMload, shape] at ran
    obtain ⟨data, -, rfl, -⟩ := ran
    exact moved_of_update rfl analysed (by simp [shape]) rfl rfl rfl rfl

theorem keeps_opMstore : Keeps .MSTORE false (opMstore : ExecutionFunc S) (some memoryMStore) 2 0 where
  runs _ _ frame enough covers small _ := by
    rcases shape : frame.stack with _ | ⟨mStart, _ | ⟨val, rest⟩⟩ <;> simp [shape] at enough
    have fixed := covers.fixed (by simp [shape] : frame.stack[0]? = some mStart)
    simp [opMstore, shape, Memory.Set32_noPanic val (by simpa [calcMemSize] using fixed) small]
  moves _ _ frame _ _ enough analysed ran := by
    rcases shape : frame.stack with _ | ⟨mStart, _ | ⟨val, rest⟩⟩ <;> simp [shape] at enough
    simp [opMstore, shape] at ran
    obtain ⟨mem, writing, rfl, -⟩ := ran
    exact moved_of_update rfl analysed (by simp [shape]) rfl rfl (Memory.Len_of_Set32 writing) rfl

theorem keeps_opMstore8 : Keeps .MSTORE8 false (opMstore8 : ExecutionFunc S) (some memoryMStore8) 2 0 where
  runs _ _ frame enough covers small _ := by
    rcases shape : frame.stack with _ | ⟨off, _ | ⟨val, rest⟩⟩ <;> simp [shape] at enough
    have fixed := covers.fixed (by simp [shape] : frame.stack[0]? = some off)
    simp [opMstore8, shape,
      Memory.setByte_noPanic (UInt8.ofNat val) (by simpa [calcMemSize] using fixed) small]
  moves _ _ frame _ _ enough analysed ran := by
    rcases shape : frame.stack with _ | ⟨off, _ | ⟨val, rest⟩⟩ <;> simp [shape] at enough
    simp [opMstore8, shape] at ran
    obtain ⟨mem, writing, rfl, -⟩ := ran
    exact moved_of_update rfl analysed (by simp [shape]) rfl rfl (Memory.Len_of_setByte writing) rfl

theorem keeps_opSstore : Keeps .SSTORE false (opSstore : ExecutionFunc S) none 2 0 where
  runs _ _ frame enough _ _ _ := by
    rcases shape : frame.stack with _ | ⟨loc, _ | ⟨val, rest⟩⟩ <;> simp [shape] at enough
    simp [opSstore, shape]
  moves _ _ frame _ _ enough analysed ran := by
    rcases shape : frame.stack with _ | ⟨loc, _ | ⟨val, rest⟩⟩ <;> simp [shape] at enough
    simp [opSstore, shape] at ran
    obtain ⟨rfl, -⟩ := ran
    exact moved_of_update rfl analysed (by simp [shape]) rfl rfl rfl rfl

theorem keeps_opSuicide : Keeps .SELFDESTRUCT false (opSuicide : ExecutionFunc S) none 1 0 where
  runs _ _ frame enough _ _ _ := by
    rcases shape : frame.stack with _ | ⟨beneficiary, rest⟩ <;> simp [shape] at enough
    simp [opSuicide, shape]
  moves _ _ frame _ _ enough analysed ran := by
    rcases shape : frame.stack with _ | ⟨beneficiary, rest⟩ <;> simp [shape] at enough
    simp [opSuicide, shape] at ran
    obtain ⟨rfl, -⟩ := ran
    exact moved_of_update rfl analysed (by simp [shape]) rfl rfl rfl rfl

/-- `opReturn`, and `opRevert` whose body it is, read the range they return. -/
theorem keeps_opReturn {op : OpCode} (plain : op.immediate = 0) :
    Keeps op false (opReturn : ExecutionFunc S) (some memoryReturn) 2 0 where
  runs _ _ frame enough covers small _ := by
    rcases shape : frame.stack with _ | ⟨offset, _ | ⟨size, rest⟩⟩ <;> simp [shape] at enough
    have range := covers.range (by simp [shape] : frame.stack[0]? = some offset)
      (by simp [shape] : frame.stack[1]? = some size)
    simp [opReturn, shape, Memory.GetPtr_noPanic range small]
  moves _ _ frame _ _ enough analysed ran := by
    rcases shape : frame.stack with _ | ⟨offset, _ | ⟨size, rest⟩⟩ <;> simp [shape] at enough
    simp [opReturn, shape] at ran
    obtain ⟨-, -, rfl, -⟩ := ran
    exact moved_of_update plain analysed (by simp [shape]) rfl rfl rfl rfl

/-! ## The families -/

theorem keeps_makeLog (n : Fin 5) :
    Keeps (.LOG n) false (makeLog n : ExecutionFunc S) (some memoryLog) (n + 2) 0 where
  runs _ _ frame enough covers small _ := by
    rcases shape : frame.stack with _ | ⟨mStart, _ | ⟨mSize, rest⟩⟩ <;> simp [shape] at enough
    have range := covers.range (by simp [shape] : frame.stack[0]? = some mStart)
      (by simp [shape] : frame.stack[1]? = some mSize)
    simp [makeLog, shape, Stack.popN_of_le n rest (by omega), Memory.Get_noPanic range small]
  moves _ _ frame _ _ enough analysed ran := by
    rcases shape : frame.stack with _ | ⟨mStart, _ | ⟨mSize, rest⟩⟩ <;> simp [shape] at enough
    simp [makeLog, shape, Stack.popN_of_le n rest (by omega)] at ran
    obtain ⟨-, -, rfl, -⟩ := ran
    exact moved_of_update rfl analysed (by simp [shape]; omega) rfl rfl rfl rfl

/-- A push reads the bytes after its opcode within the code, and moves over them. -/
theorem keeps_makePush (n : Fin 32) :
    Keeps (.PUSH n) false (makePush (n + 1) (n + 1) : ExecutionFunc S) none 0 1 where
  runs _ _ frame _ _ _ _ := by
    -- Both ends are clamped to the code, the end no lower than the start.
    unfold makePush
    dsimp only
    rw [slice?_of_le (by split_ifs <;> omega) (by split_ifs <;> omega)]
    exact NoPanic.ok _
  moves _ _ frame _ _ _ analysed ran := by
    unfold makePush at ran
    dsimp only at ran
    rw [slice?_of_le (by split_ifs <;> omega) (by split_ifs <;> omega)] at ran
    simp only [pure, Except.pure, Except.ok.injEq, Prod.mk.injEq] at ran
    obtain ⟨rfl, -⟩ := ran
    exact ⟨⟨by simp, rfl, analysed, rfl, by simp [OpCode.immediate]⟩, rfl⟩

theorem keeps_makeDup (n : Fin 16) :
    Keeps (.DUP n) false (makeDup (n + 1) : ExecutionFunc S) none (n + 1) (n + 1 + 1) where
  runs _ _ frame enough _ _ _ := by
    simp [makeDup, Stack.dup_of_le (Nat.succ_pos n) enough]
  moves _ _ frame _ _ enough analysed ran := by
    simp [makeDup, Stack.dup_of_le (Nat.succ_pos n) enough] at ran
    obtain ⟨rfl, -⟩ := ran
    exact moved_of_update rfl analysed (by simp; omega) rfl rfl rfl rfl

theorem keeps_makeSwap (n : Fin 16) :
    Keeps (.SWAP n) false (makeSwap (n + 1) : ExecutionFunc S) none (n + 2) (n + 2) where
  runs _ _ frame enough _ _ _ := by
    simp [makeSwap, Stack.swap_of_le (by omega : 0 < (n : Nat) + 1 + 1) (by omega)]
  moves _ _ frame _ _ enough analysed ran := by
    simp [makeSwap, Stack.swap_of_le (by omega : 0 < (n : Nat) + 1 + 1) (by omega)] at ran
    obtain ⟨rfl, -⟩ := ran
    exact moved_of_update rfl analysed (by simp) rfl rfl rfl rfl

/-! ## Jumps -/

/-- On code whose analyses are of it, `jumpTo` never panics. -/
theorem jumpTo_noPanic {frame : Frame S} {stack : Stack} {pos : Nat}
    (analysed : frame.contract.Analysed) : NoPanic (jumpTo frame stack pos) := by
  obtain ⟨c', valid, -⟩ := validJumpdest_eq analysed pos
  unfold jumpTo
  rw [valid]
  split <;> first | simp | simp_all

/-- A jump `jumpTo` makes lands on an instruction start of the code, with caches that are still
analyses of it. -/
theorem jumpTo_eq_ok {frame after : Frame S} {stack : Stack} {pos : Nat} {res : Bytes}
    (analysed : frame.contract.Analysed) (jumped : jumpTo frame stack pos = .ok (after, res)) :
    after.stack = stack ∧ after.contract.Code = frame.contract.Code ∧ after.contract.Analysed ∧
      after.mem = frame.mem ∧ after.Gas = frame.Gas ∧
      instructionStart frame.contract.Code after.pc = true := by
  obtain ⟨c', valid, analysed', code, -⟩ := validJumpdest_eq analysed pos
  unfold jumpTo at jumped
  rw [valid] at jumped
  split at jumped
  · simp_all
  · cases jumped
  · -- The analysis accepted the destination: below `2^62`, so its `uint64` is itself.
    rename_i contract accepted
    simp only [Option.some.injEq, Prod.mk.injEq, decide_eq_true_eq] at accepted
    obtain ⟨⟨small, -, -, start⟩, rfl⟩ := accepted
    simp only [pure, Except.pure, Except.ok.injEq, Prod.mk.injEq] at jumped
    obtain ⟨rfl, -⟩ := jumped
    refine ⟨rfl, code, analysed', rfl, rfl, ?_⟩
    rwa [Nat.mod_eq_of_lt (by omega : pos < 2 ^ 64)]

theorem keeps_opJump : Keeps .JUMP true (opJump : ExecutionFunc S) none 1 0 where
  runs _ _ frame enough _ _ analysed := by
    rcases shape : frame.stack with _ | ⟨pos, rest⟩ <;> simp [shape] at enough
    simp [opJump, shape, jumpTo_noPanic analysed]
  moves _ _ frame _ _ enough analysed ran := by
    rcases shape : frame.stack with _ | ⟨pos, rest⟩ <;> simp [shape] at enough
    simp only [opJump, shape, Stack.pop_cons, Exec.ok_bind] at ran
    obtain ⟨stack, code, analysed', memory, gas, start⟩ := jumpTo_eq_ok analysed ran
    exact ⟨⟨by simp [stack, shape], code, analysed', by rw [memory], by simp [start]⟩, gas⟩

/-- `JUMPI` jumps on a nonzero condition and goes on to the next instruction otherwise. -/
theorem keeps_opJumpi : Keeps .JUMPI true (opJumpi : ExecutionFunc S) none 2 0 where
  runs _ _ frame enough _ _ analysed := by
    rcases shape : frame.stack with _ | ⟨pos, _ | ⟨cond, rest⟩⟩ <;> simp [shape] at enough
    simp [opJumpi, shape, jumpTo_noPanic analysed]
  moves _ _ frame _ _ enough analysed ran := by
    rcases shape : frame.stack with _ | ⟨pos, _ | ⟨cond, rest⟩⟩ <;> simp [shape] at enough
    simp only [opJumpi, shape, Stack.pop_cons, Exec.ok_bind] at ran
    split at ran
    · obtain ⟨stack, code, analysed', memory, gas, start⟩ := jumpTo_eq_ok analysed ran
      exact ⟨⟨by simp [stack, shape], code, analysed', by rw [memory], by simp [start]⟩, gas⟩
    · simp only [pure, Except.pure, Except.ok.injEq, Prod.mk.injEq] at ran
      obtain ⟨rfl, -⟩ := ran
      exact ⟨⟨by simp [shape], rfl, analysed, rfl, by simp [OpCode.immediate]⟩, rfl⟩

/-! ## Calls and creations -/

/-- `contract.UseGas(gas)` of at most the contract's gas, and at most that gas given back: the
contract ends with no more than it had. -/
theorem useGas_add_le {available given back : UInt64} (within : given ≤ available)
    (returned : back ≤ given) :
    ((if available < given then available else available - given) + back).toNat ≤ available.toNat := by
  have le := UInt64.le_iff_toNat_le.mp within
  have back_le := UInt64.le_iff_toNat_le.mp returned
  have enough : ¬ available < given := by
    rw [UInt64.lt_iff_toNat_lt]
    omega
  rw [if_neg enough]
  have spent := UInt64.toNat_sub_of_le _ _ within
  calc _ ≤ (available - given).toNat + back.toNat := toNat_add_le _ _
    _ ≤ available.toNat := by omega

/-- All but a 64th of the gas is no more than the gas. -/
theorem allButOne64th_le (gas : UInt64) : gas - gas / 64 ≤ gas := by
  have part : gas / 64 ≤ gas := UInt64.le_iff_toNat_le.mpr (by
    simp only [UInt64.toNat_div, UInt64.reduceToNat]
    omega)
  rw [UInt64.le_iff_toNat_le, UInt64.toNat_sub_of_le _ _ part]
  omega

/-- The gas a call gets back is at most what it was given, and what it was given is at most
`callGasTemp` with the stipend when it sends value. -/
theorem call_back_le {available given callGasTemp back : UInt64} {value : Nat}
    (returned : back ≤ given)
    (within : given.toNat ≤ callGasTemp.toNat + (if value = 0 then 0 else 2300)) :
    (available + back).toNat ≤
      available.toNat + callGasTemp.toNat + (if value = 0 then 0 else 2300) := by
  have sum := toNat_add_le available back
  have back_le := UInt64.le_iff_toNat_le.mp returned
  omega

/-- The stipend is sent only with value. -/
theorem stipend_le {callGasTemp : UInt64} {value : Nat} (transfers : U256 value ≠ 0) :
    (callGasTemp + CallStipend).toNat ≤ callGasTemp.toNat + (if value = 0 then 0 else 2300) := by
  have nonzero : value ≠ 0 := by
    rintro rfl
    simp [U256] at transfers
  have sum := toNat_add_le callGasTemp CallStipend
  have stipend : CallStipend.toNat = 2300 := rfl
  rw [if_neg nonzero]
  omega

theorem runs_opCreate : Runs (opCreate : ExecutionFunc S) (some memoryCreate) 3 := by
  intro _ _ frame enough covers small _
  rcases shape : frame.stack with _ | ⟨value, _ | ⟨offset, _ | ⟨size, rest⟩⟩⟩ <;> simp [shape] at enough
  have range := covers.range (by simp [shape] : frame.stack[1]? = some offset)
    (by simp [shape] : frame.stack[2]? = some size)
  simp [opCreate, shape, Memory.Get_noPanic range small]

theorem moves_opCreate : Moves .CREATE false (opCreate : ExecutionFunc S) 3 1 := by
  intro _ _ frame after _ enough analysed ran
  rcases shape : frame.stack with _ | ⟨value, _ | ⟨offset, _ | ⟨size, rest⟩⟩⟩ <;> simp [shape] at enough
  simp only [opCreate, shape, Stack.pop_cons, Exec.ok_bind, Exec.bind_eq_ok, Exec.pure_eq_ok,
    Prod.mk.injEq] at ran
  obtain ⟨input, -, rfl, -⟩ := ran
  exact Moved.plain rfl analysed (by simp [shape]) rfl rfl rfl

/-- A creation gives back no more than the gas it was given, which is no more than the contract's. -/
theorem opCreate_gas {evm : EVM S} (bounded : evm.Bounded) {inv : Invocation} {frame after : Frame S}
    {res : Bytes} (ran : opCreate evm inv frame = .ok (after, res)) :
    after.Gas.toNat ≤ frame.Gas.toNat := by
  simp only [opCreate, Exec.bind_eq_ok, Exec.pure_eq_ok, Prod.mk.injEq] at ran
  obtain ⟨_, -, _, -, _, -, input, -, rfl, -⟩ := ran
  -- The creation is given all but a 64th of the gas after EIP-150, and all of it before.
  have within : (if evm.IsEIP150 = true then frame.Gas - frame.Gas / 64 else frame.Gas) ≤ frame.Gas := by
    split
    · exact allButOne64th_le _
    · exact UInt64.le_iff_toNat_le.mpr le_rfl
  exact useGas_add_le within (bounded.Create _ _ _ _ _)

theorem runs_opCreate2 : Runs (opCreate2 : ExecutionFunc S) (some memoryCreate2) 4 := by
  intro _ _ frame enough covers small _
  rcases shape : frame.stack with _ | ⟨endowment, _ | ⟨offset, _ | ⟨size, _ | ⟨salt, rest⟩⟩⟩⟩ <;>
    simp [shape] at enough
  have range := covers.range (by simp [shape] : frame.stack[1]? = some offset)
    (by simp [shape] : frame.stack[2]? = some size)
  simp [opCreate2, shape, Memory.Get_noPanic range small]

theorem moves_opCreate2 : Moves .CREATE2 false (opCreate2 : ExecutionFunc S) 4 1 := by
  intro _ _ frame after _ enough analysed ran
  rcases shape : frame.stack with _ | ⟨endowment, _ | ⟨offset, _ | ⟨size, _ | ⟨salt, rest⟩⟩⟩⟩ <;>
    simp [shape] at enough
  simp only [opCreate2, shape, Stack.pop_cons, Exec.ok_bind, Exec.bind_eq_ok, Exec.pure_eq_ok,
    Prod.mk.injEq] at ran
  obtain ⟨input, -, rfl, -⟩ := ran
  exact Moved.plain rfl analysed (by simp [shape]) rfl rfl rfl

theorem opCreate2_gas {evm : EVM S} (bounded : evm.Bounded) {inv : Invocation}
    {frame after : Frame S} {res : Bytes} (ran : opCreate2 evm inv frame = .ok (after, res)) :
    after.Gas.toNat ≤ frame.Gas.toNat := by
  simp only [opCreate2, Exec.bind_eq_ok, Exec.pure_eq_ok, Prod.mk.injEq] at ran
  obtain ⟨_, -, _, -, _, -, _, -, input, -, rfl, -⟩ := ran
  exact useGas_add_le (allButOne64th_le _) (bounded.Create2 _ _ _ _ _ _)

theorem runs_callOp (call : EVM S → S → Invocation → Address → Bytes → UInt64 → Nat → CallResult S) :
    Runs (callOp call) (some memoryCall) 7 := by
  intro _ _ frame enough covers small _
  rcases shape : frame.stack with _ | ⟨gas, _ | ⟨addr, _ | ⟨value, _ | ⟨inOffset, _ | ⟨inSize,
    _ | ⟨retOffset, _ | ⟨retSize, rest⟩⟩⟩⟩⟩⟩⟩ <;> simp [shape] at enough
  obtain ⟨ret, args⟩ := covers.calls (by simp [shape] : frame.stack[5]? = some retOffset)
    (by simp [shape] : frame.stack[5 + 1]? = some retSize)
    (by simp [shape] : frame.stack[3]? = some inOffset)
    (by simp [shape] : frame.stack[3 + 1]? = some inSize)
  simp [callOp, shape, Memory.Get_noPanic args small, Memory.Set_noPanic _ ret small]

theorem moves_callOp (call : EVM S → S → Invocation → Address → Bytes → UInt64 → Nat → CallResult S)
    {op : OpCode} (plain : op.immediate = 0) : Moves op false (callOp call) 7 1 := by
  intro _ _ frame after _ enough analysed ran
  rcases shape : frame.stack with _ | ⟨gas, _ | ⟨addr, _ | ⟨value, _ | ⟨inOffset, _ | ⟨inSize,
    _ | ⟨retOffset, _ | ⟨retSize, rest⟩⟩⟩⟩⟩⟩⟩ <;> simp [shape] at enough
  simp only [callOp, shape, Stack.pop_cons, Exec.ok_bind, Exec.bind_eq_ok] at ran
  obtain ⟨args, -, ran⟩ := ran
  -- The output is written unless the call failed other than by reverting.
  split_ifs at ran <;> simp at ran <;>
    first
    | obtain ⟨mem, writing, rfl, -⟩ := ran
      exact Moved.plain plain analysed (by simp [shape]) rfl rfl (Memory.Len_of_Set writing)
    | obtain ⟨rfl, -⟩ := ran
      exact Moved.plain plain analysed (by simp [shape]) rfl rfl rfl

/-- A call gives back no more than `callGasTemp` and the stipend it sends with value. -/
theorem callOp_gas {call : EVM S → S → Invocation → Address → Bytes → UInt64 → Nat → CallResult S}
    {evm : EVM S} (bounded : ∀ s inv addr input gas value, (call evm s inv addr input gas value).leftOverGas ≤ gas)
    {inv : Invocation} {frame after : Frame S} {res : Bytes}
    {gas addr value inOffset inSize retOffset retSize : Nat} {rest : Stack}
    (shape : frame.stack = gas :: addr :: value :: inOffset :: inSize :: retOffset :: retSize :: rest)
    (ran : callOp call evm inv frame = .ok (after, res)) :
    after.Gas.toNat ≤ frame.Gas.toNat + frame.callGasTemp.toNat + (if value = 0 then 0 else 2300) := by
  simp only [callOp, shape, Stack.pop_cons, Exec.ok_bind, Exec.bind_eq_ok] at ran
  obtain ⟨args, -, ran⟩ := ran
  have given : (if U256 (value : Int) ≠ 0 then frame.callGasTemp + CallStipend
      else frame.callGasTemp).toNat ≤ frame.callGasTemp.toNat + (if value = 0 then 0 else 2300) := by
    by_cases transfers : U256 (value : Int) ≠ 0
    · rw [if_pos transfers]
      exact stipend_le transfers
    · rw [if_neg transfers]
      omega
  generalize (if U256 (value : Int) ≠ 0 then frame.callGasTemp + CallStipend
    else frame.callGasTemp) = sent at ran given
  -- Whether the output is written or not, the gas comes back from the call.
  split_ifs at ran <;> simp at ran <;>
    (first | obtain ⟨rfl, -⟩ := ran | obtain ⟨_, -, rfl, -⟩ := ran) <;>
    exact call_back_le (bounded _ _ _ _ _ _) given

theorem runs_delegateOp (call : EVM S → S → Invocation → Address → Bytes → UInt64 → CallResult S) :
    Runs (delegateOp call) (some memoryDelegateCall) 6 := by
  intro _ _ frame enough covers small _
  rcases shape : frame.stack with _ | ⟨gas, _ | ⟨addr, _ | ⟨inOffset, _ | ⟨inSize,
    _ | ⟨retOffset, _ | ⟨retSize, rest⟩⟩⟩⟩⟩⟩ <;> simp [shape] at enough
  obtain ⟨ret, args⟩ := covers.calls (by simp [shape] : frame.stack[4]? = some retOffset)
    (by simp [shape] : frame.stack[4 + 1]? = some retSize)
    (by simp [shape] : frame.stack[2]? = some inOffset)
    (by simp [shape] : frame.stack[2 + 1]? = some inSize)
  simp [delegateOp, shape, Memory.Get_noPanic args small, Memory.Set_noPanic _ ret small]

theorem moves_delegateOp (call : EVM S → S → Invocation → Address → Bytes → UInt64 → CallResult S)
    {op : OpCode} (plain : op.immediate = 0) : Moves op false (delegateOp call) 6 1 := by
  intro _ _ frame after _ enough analysed ran
  rcases shape : frame.stack with _ | ⟨gas, _ | ⟨addr, _ | ⟨inOffset, _ | ⟨inSize,
    _ | ⟨retOffset, _ | ⟨retSize, rest⟩⟩⟩⟩⟩⟩ <;> simp [shape] at enough
  simp only [delegateOp, shape, Stack.pop_cons, Exec.ok_bind, Exec.bind_eq_ok] at ran
  obtain ⟨args, -, ran⟩ := ran
  split_ifs at ran <;> simp at ran <;>
    first
    | obtain ⟨mem, writing, rfl, -⟩ := ran
      exact Moved.plain plain analysed (by simp [shape]) rfl rfl (Memory.Len_of_Set writing)
    | obtain ⟨rfl, -⟩ := ran
      exact Moved.plain plain analysed (by simp [shape]) rfl rfl rfl

/-- A delegate or static call gives back no more than `callGasTemp`. -/
theorem delegateOp_gas {call : EVM S → S → Invocation → Address → Bytes → UInt64 → CallResult S}
    {evm : EVM S} (bounded : ∀ s inv addr input gas, (call evm s inv addr input gas).leftOverGas ≤ gas)
    {inv : Invocation} {frame after : Frame S} {res : Bytes}
    (ran : delegateOp call evm inv frame = .ok (after, res)) :
    after.Gas.toNat ≤ frame.Gas.toNat + frame.callGasTemp.toNat := by
  simp only [delegateOp, Exec.bind_eq_ok] at ran
  obtain ⟨_, -, _, -, _, -, _, -, _, -, _, -, args, -, ran⟩ := ran
  split_ifs at ran <;> simp at ran <;>
    (first | obtain ⟨rfl, -⟩ := ran | obtain ⟨_, -, rfl, -⟩ := ran) <;>
    exact le_trans (toNat_add_le _ _)
      (Nat.add_le_add_left (UInt64.le_iff_toNat_le.mp (bounded _ _ _ _ _)) _)

/-- The gas the charge leaves is the contract's gas less the cost, which it covers. -/
theorem toNat_charged {frame charged : Frame S} {cost : UInt64} (kept : Kept frame charged)
    (paid : cost ≤ charged.Gas) : (charged.Gas - cost).toNat + cost.toNat = frame.Gas.toNat := by
  have covered := UInt64.le_iff_toNat_le.mp paid
  rw [UInt64.toNat_sub_of_le _ _ paid, ← kept.Gas]
  omega

/-- `gasCall` charges at least the gas it gives, and the value transfer's price with value. -/
theorem gasCall_cost {gasTable : GasTable} (sane : gasTable.Calls.toNat < 2 ^ 63) {evm : EVM S}
    {inv : Invocation} {frame charged : Frame S} {size cost : UInt64} {value : Nat}
    (valueAt : frame.stack[2]? = some value)
    (priced : gasCall gasTable evm inv frame size = .ok (cost, charged)) :
    charged.callGasTemp.toNat + (if value = 0 then 0 else 9000) ≤ cost.toNat := by
  simp only [gasCall, Exec.bind_eq_ok, Exec.pure_eq_ok, Prod.mk.injEq] at priced
  obtain ⟨v, read, address, -, ⟨fee, F⟩, -, base, added, asked, -, callGasTemp, -, total, summed,
    rfl, rfl⟩ := priced
  obtain rfl : value = v := by simpa [Stack.Back, valueAt, pure, Except.pure] using read
  have sumBase := checkedAdd_eq_ok added
  have sumTotal := checkedAdd_eq_ok summed
  -- The call's price, a new account's and the transfer's do not wrap below 2^64.
  simp only
  split_ifs at sumBase <;>
    simp_all [UInt64.toNat_add, CallNewAccountGas, CallValueTransferGas] <;> omega

/-- `gasCallCode` charges at least the gas it gives, and the value transfer's price with value. -/
theorem gasCallCode_cost {gasTable : GasTable} (sane : gasTable.Calls.toNat < 2 ^ 63) {evm : EVM S}
    {inv : Invocation} {frame charged : Frame S} {size cost : UInt64} {value : Nat}
    (valueAt : frame.stack[2]? = some value)
    (priced : gasCallCode gasTable evm inv frame size = .ok (cost, charged)) :
    charged.callGasTemp.toNat + (if value = 0 then 0 else 9000) ≤ cost.toNat := by
  simp only [gasCallCode, Exec.bind_eq_ok, Exec.pure_eq_ok, Prod.mk.injEq] at priced
  obtain ⟨v, read, ⟨fee, F⟩, -, base, added, asked, -, callGasTemp, -, total, summed,
    rfl, rfl⟩ := priced
  obtain rfl : value = v := by simpa [Stack.Back, valueAt, pure, Except.pure] using read
  have sumBase := checkedAdd_eq_ok added
  have sumTotal := checkedAdd_eq_ok summed
  simp only
  -- The price and the transfer's do not wrap below 2^64, as in `gasCall_cost`.
  split_ifs at sumBase <;> simp_all [UInt64.toNat_add, CallValueTransferGas]
  omega

/-- `gasDelegateCall` charges at least the gas it gives. -/
theorem gasDelegateCall_cost {gasTable : GasTable} {evm : EVM S} {inv : Invocation}
    {frame charged : Frame S} {size cost : UInt64}
    (priced : gasDelegateCall gasTable evm inv frame size = .ok (cost, charged)) :
    charged.callGasTemp.toNat ≤ cost.toNat := by
  simp only [gasDelegateCall, Exec.bind_eq_ok, Exec.pure_eq_ok, Prod.mk.injEq] at priced
  obtain ⟨⟨fee, F⟩, -, base, -, asked, -, callGasTemp, -, total, summed, rfl, rfl⟩ := priced
  have sumTotal := checkedAdd_eq_ok summed
  simp only
  omega

/-! ## The gas an operation spends -/

theorem spends_opCreate (gasTable : GasTable) :
    Spends (gasCreate : GasFunc S) opCreate false gasTable 3 := by
  intro evm inv frame size cost charged after res bounded _ _ pricing paid ran
  have charged_gas := toNat_charged ((priced_memoryStepGas CreateGas none 3).keeps _ _ _ _ _ _ _
    pricing) paid
  have back := opCreate_gas bounded ran
  simp only [Frame.charge_Gas] at back
  simp only [Bool.false_eq_true, if_false]
  omega

theorem spends_opCreate2 (gasTable : GasTable) :
    Spends (gasCreate2 : GasFunc S) opCreate2 false gasTable 4 := by
  intro evm inv frame size cost charged after res bounded _ _ pricing paid ran
  have charged_gas := toNat_charged ((priced_copierGas _ 2 Sha3WordGas none
    (show 2 < 4 by norm_num)).keeps _ _ _ _ _ _ _ pricing) paid
  have back := opCreate2_gas bounded ran
  simp only [Frame.charge_Gas] at back
  simp only [Bool.false_eq_true, if_false]
  omega

/-- A call gets back at most the gas it was charged for: `callGasTemp`, and with value the
stipend, which the transfer's price covers. -/
theorem spends_of_callOp {call : EVM S → S → Invocation → Address → Bytes → UInt64 → Nat → CallResult S}
    {gasCost : GasFunc S} {gasTable : GasTable}
    (keeps : ∀ evm inv (frame : Frame S) size cost charged,
      gasCost gasTable evm inv frame size = .ok (cost, charged) → Kept frame charged)
    (price : ∀ evm inv (frame : Frame S) size cost charged value, frame.stack[2]? = some value →
      gasCost gasTable evm inv frame size = .ok (cost, charged) →
      charged.callGasTemp.toNat + (if value = 0 then 0 else 9000) ≤ cost.toNat)
    (bounded : ∀ evm : EVM S, evm.Bounded →
      ∀ s inv addr input gas value, (call evm s inv addr input gas value).leftOverGas ≤ gas) :
    Spends gasCost (callOp call) false gasTable 7 := by
  intro evm inv frame size cost charged after res returns enough _ pricing paid ran
  have kept := keeps _ _ _ _ _ _ pricing
  rcases shape : frame.stack with _ | ⟨gas, _ | ⟨addr, _ | ⟨value, _ | ⟨inOffset, _ | ⟨inSize,
    _ | ⟨retOffset, _ | ⟨retSize, rest⟩⟩⟩⟩⟩⟩⟩ <;> simp [shape] at enough
  have charges := price _ _ _ _ _ _ _ (by simp [shape] : frame.stack[2]? = some value) pricing
  have back := callOp_gas (bounded evm returns) (by simp [kept.stack, shape] :
    (charged.charge cost size).stack =
      gas :: addr :: value :: inOffset :: inSize :: retOffset :: retSize :: rest) ran
  have charged_gas := toNat_charged kept paid
  simp only [Frame.charge_Gas, Frame.charge_callGasTemp] at back
  simp only [Bool.false_eq_true, if_false]
  split_ifs at charges back <;> omega

theorem spends_opCall {gasTable : GasTable} (sane : gasTable.Calls.toNat < 2 ^ 63) :
    Spends (gasCall : GasFunc S) opCall false gasTable 7 :=
  spends_of_callOp (fun _ _ _ _ _ _ => (priced_gasCall none).keeps _ _ _ _ _ _ _)
    (fun _ _ _ _ _ _ _ valueAt => gasCall_cost sane valueAt) fun _ bounded => bounded.Call

theorem spends_opCallCode {gasTable : GasTable} (sane : gasTable.Calls.toNat < 2 ^ 63) :
    Spends (gasCallCode : GasFunc S) opCallCode false gasTable 7 :=
  spends_of_callOp (fun _ _ _ _ _ _ => (priced_gasCallCode none).keeps _ _ _ _ _ _ _)
    (fun _ _ _ _ _ _ _ valueAt => gasCallCode_cost sane valueAt) fun _ bounded => bounded.CallCode

/-- A delegate or static call gets back at most `callGasTemp`, which its price covers. -/
theorem spends_of_delegateOp
    {call : EVM S → S → Invocation → Address → Bytes → UInt64 → CallResult S} (gasTable : GasTable)
    (bounded : ∀ evm : EVM S, evm.Bounded →
      ∀ s inv addr input gas, (call evm s inv addr input gas).leftOverGas ≤ gas) :
    Spends (gasDelegateCall : GasFunc S) (delegateOp call) false gasTable 6 := by
  intro evm inv frame size cost charged after res returns _ _ pricing paid ran
  have price := gasDelegateCall_cost pricing
  have back := delegateOp_gas (bounded evm returns) ran
  have charged_gas := toNat_charged ((priced_gasDelegateCall none).keeps _ _ _ _ _ _ _ pricing) paid
  simp only [Frame.charge_Gas, Frame.charge_callGasTemp] at back
  simp only [Bool.false_eq_true, if_false]
  omega

theorem spends_opDelegateCall (gasTable : GasTable) :
    Spends (gasDelegateCall : GasFunc S) opDelegateCall false gasTable 6 :=
  spends_of_delegateOp gasTable fun _ bounded => bounded.DelegateCall

theorem spends_opStaticCall (gasTable : GasTable) :
    Spends (gasStaticCall : GasFunc S) opStaticCall false gasTable 6 :=
  spends_of_delegateOp gasTable fun _ bounded => bounded.StaticCall

/-! ## Entries whose execution keeps the gas -/

/-- An execution that keeps the gas moves the frame as its counts say. -/
theorem Keeps.moves_all {op : OpCode} {jumps : Bool} {execute : ExecutionFunc S}
    {memorySize : Option (Stack → Exec Nat)} {pops pushes : Nat}
    (keeps : Keeps op jumps execute memorySize pops pushes) : Moves op jumps execute pops pushes :=
  fun evm inv frame after res enough analysed ran =>
    (keeps.moves evm inv frame after res enough analysed ran).1

/--
An execution that keeps the gas leaves the contract what the charge left it: no more than it had,
and less when it jumps, for a price that is never zero.
-/
theorem Keeps.spends {op : OpCode} {jumps : Bool} {execute : ExecutionFunc S}
    {memorySize : Option (Stack → Exec Nat)} {pops pushes : Nat}
    (keeps : Keeps op jumps execute memorySize pops pushes) {gasCost : GasFunc S}
    (kept : ∀ gt evm inv (frame : Frame S) size cost after,
      gasCost gt evm inv frame size = .ok (cost, after) → Kept frame after)
    (charges : jumps = true → ∀ gt evm inv (frame : Frame S) size cost after,
      gasCost gt evm inv frame size = .ok (cost, after) → 0 < cost)
    (gasTable : GasTable) : Spends gasCost execute jumps gasTable pops := by
  intro evm inv frame size cost charged after res _ enough analysed pricing paid ran
  have sameFrame := kept _ _ _ _ _ _ _ pricing
  have moved := keeps.moves evm inv _ after res (by simpa [sameFrame.stack] using enough)
    (by simpa [sameFrame.contract] using analysed) ran
  have charged_gas := toNat_charged sameFrame paid
  rw [moved.2, Frame.charge_Gas]
  -- A jump pays a price of at least one, which the `+ 1` of its bound needs.
  cases jumps with
  | false =>
    simp only [Bool.false_eq_true, if_false]
    omega
  | true =>
    have positive := UInt64.lt_iff_toNat_lt.mp (charges rfl _ _ _ _ _ _ _ pricing)
    simp only [UInt64.toNat_zero, if_true] at positive ⊢
    omega

/--
An entry whose execution keeps the gas is sound once its checks, size and price are. The entry is
written out field by field, as the instruction sets build it.
-/
theorem Keeps.sound {op : OpCode} {execute : ExecutionFunc S} {gasCost : GasFunc S}
    {validateStack : Stack → Exec Unit} {memorySize : Option (Stack → Exec Nat)}
    {halts jumps writes reverts returns : Bool} {pops pushes : Nat}
    (validate : validateStack = makeStackFunc pops pushes) (restricts : op = .CALL → 3 ≤ pops)
    (stops : op = .STOP → halts = true) (sized : Sized memorySize pops)
    (priced : Priced gasCost memorySize pops)
    (keeps : Keeps op jumps execute memorySize pops pushes)
    (charges : jumps = true → ∀ gt evm inv (frame : Frame S) size cost after,
      gasCost gt evm inv frame size = .ok (cost, after) → 0 < cost) :
    Sound op { execute, gasCost, validateStack, memorySize, halts, jumps, writes, reverts, returns }
      pops pushes :=
  ⟨validate, restricts, stops, sized, priced, keeps.runs, keeps.moves_all,
    fun gasTable _ => keeps.spends priced.keeps charges gasTable⟩

/-- The common case: an entry that is not `CALL`, not `STOP` and does not jump. -/
theorem Keeps.sound_plain {op : OpCode} {execute : ExecutionFunc S} {gasCost : GasFunc S}
    {validateStack : Stack → Exec Unit} {memorySize : Option (Stack → Exec Nat)}
    {halts writes reverts returns : Bool} {pops pushes : Nat}
    (validate : validateStack = makeStackFunc pops pushes) (plain : op ≠ .CALL ∧ op ≠ .STOP)
    (sized : Sized memorySize pops) (priced : Priced gasCost memorySize pops)
    (keeps : Keeps op false execute memorySize pops pushes) :
    Sound op
      { execute, gasCost, validateStack, memorySize, halts, jumps := false, writes, reverts, returns }
      pops pushes :=
  Keeps.sound validate (fun call => absurd call plain.1) (fun stop => absurd stop plain.2) sized
    priced keeps (fun jumps => absurd jumps Bool.false_ne_true)

/-- A constant price charges its constant. -/
theorem constGasFunc_cost {gas cost : UInt64} {gt : GasTable} {evm : EVM S} {inv : Invocation}
    {frame after : Frame S} {size : UInt64}
    (priced : constGasFunc gas gt evm inv frame size = .ok (cost, after)) : cost = gas := by
  simp only [constGasFunc, pure, Except.pure, Except.ok.injEq, Prod.mk.injEq] at priced
  exact priced.1.symm

end Vm

end Harmony
