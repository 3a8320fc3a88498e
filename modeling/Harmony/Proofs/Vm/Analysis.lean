import Harmony.Vm.Analysis

/-!
What `codeBitmap` computes. The plain scan reads code left to right and skips the `n` bytes of
immediate data after each `PUSHn`; `codeBitmap` never indexes past its vector, and its vector marks
exactly the bytes the plain scan skips. `validJumpdest` then accepts a destination exactly when it
is below `2^62`, holds a `JUMPDEST` and starts an instruction of the plain scan, whatever analyses
the contract has cached, as long as they are analyses of its code.

The invariant of the outer loop (`Scanned`) names what the loop has settled on reaching `pc`: the
marks of the bytes before `pc`, and that the plain scan restarts at `pc`.
-/

namespace Harmony

open Go

namespace Vm

/-- How many bytes of immediate data an opcode has: `n` for `PUSHn`, none for any other opcode. -/
def pushSize (op : UInt8) : Nat :=
  if 0x60 ≤ op.toNat ∧ op.toNat ≤ 0x7f then op.toNat - 0x5f else 0

/--
The plain left-to-right scan: for each byte, whether it is immediate data of a push. `owed` counts
the bytes of the last push's data still to come.
-/
def immediateData : Nat → Bytes → List Bool
  | _, [] => []
  | 0, op :: rest => false :: immediateData (pushSize op) rest
  | owed + 1, _ :: rest => true :: immediateData owed rest

/-- Position `pos` of `code` starts an instruction of the plain scan. -/
def instructionStart (code : Bytes) (pos : Nat) : Bool :=
  (immediateData 0 code)[pos]? == some false

/-- Bit `pos` of the vector, a missing byte read as zero. -/
def bitvec.marked (bits : bitvec) (pos : Nat) : Bool :=
  (bits[pos / 8]?.getD 0).toNat.testBit (7 - pos % 8)

/-! ## The plain scan -/

@[simp] theorem length_immediateData (owed : Nat) (code : Bytes) :
    (immediateData owed code).length = code.length := by
  induction code generalizing owed with
  | nil => rfl
  | cons op rest ih => cases owed <;> simp [immediateData, ih]

/-- Skipping the data a scan still owes leaves a scan that restarts after it. -/
theorem drop_immediateData (owed : Nat) (code : Bytes) :
    (immediateData owed code).drop owed = immediateData 0 (code.drop owed) := by
  induction code generalizing owed with
  | nil => simp [immediateData]
  | cons op rest ih =>
    cases owed with
    | zero => rfl
    | succ owed => simpa [immediateData] using ih owed

/-- The bytes a scan still owes are data. -/
theorem getElem?_immediateData_of_lt {owed i : Nat} {code : Bytes} (owing : i < owed)
    (within : i < code.length) : (immediateData owed code)[i]? = some true := by
  induction code generalizing owed i with
  | nil => simp at within
  | cons op rest ih =>
    obtain ⟨owed, rfl⟩ : ∃ o, owed = o + 1 := ⟨owed - 1, by omega⟩
    cases i with
    | zero => rfl
    | succ i => simpa [immediateData] using ih (by omega) (by simpa using within)

/-- The scan from an instruction at `pc` reads the opcode, then owes its push data. -/
theorem immediateData_drop_of_getElem? {code : Bytes} {pc : Nat} {op : UInt8}
    (found : code[pc]? = some op) :
    immediateData 0 (code.drop pc) = false :: immediateData (pushSize op) (code.drop (pc + 1)) := by
  obtain ⟨within, rfl⟩ := List.getElem?_eq_some_iff.mp found
  rw [List.drop_eq_getElem_cons within, immediateData]

/-! ## Masks and marks -/

/--
The masks of `set` and `set8` bit by bit, for the offset `k` of the position they mark inside its
byte: offset `t` of a byte is its bit `7 - t`.
-/
theorem testBit_masks : ∀ k t : Fin 8,
    ((0x80 : UInt8) >>> (k : Nat).toUInt8).toNat.testBit (7 - t) = decide (t = k) ∧
      ((0xFF : UInt8) >>> (k : Nat).toUInt8).toNat.testBit (7 - t) = decide (k ≤ t) ∧
      (~~~((0xFF : UInt8) >>> (k : Nat).toUInt8)).toNat.testBit (7 - t) = decide (t < k) := by
  decide

/-- The mask of `set` and `codeSegment` is the power of two of the position's bit. -/
theorem toNat_highMask (pos : Nat) :
    ((0x80 : UInt8) >>> (pos % 8).toUInt8).toNat = 2 ^ (7 - pos % 8) := by
  have powers : ∀ k : Fin 8, ((0x80 : UInt8) >>> (k : Nat).toUInt8).toNat = 2 ^ (7 - (k : Nat)) := by
    decide
  exact powers ⟨pos % 8, Nat.mod_lt pos (by decide)⟩

/-- `codeSegment` reads the bit `set` writes: the byte meets the mask exactly when that bit is set. -/
theorem and_highMask_eq_zero (byte : UInt8) (pos : Nat) :
    (byte &&& (0x80 >>> (pos % 8).toUInt8) == 0) = !byte.toNat.testBit (7 - pos % 8) := by
  have masked : (byte &&& (0x80 >>> (pos % 8).toUInt8)).toNat =
      (byte.toNat.testBit (7 - pos % 8)).toNat * 2 ^ (7 - pos % 8) := by
    rw [UInt8.toNat_and, toNat_highMask, Nat.and_two_pow]
  cases bit : byte.toNat.testBit (7 - pos % 8)
  · have zero : byte &&& (0x80 >>> (pos % 8).toUInt8) = 0 :=
      UInt8.toNat_inj.mp (by simp [masked, bit])
    simp [zero]
  · have nonzero : byte &&& (0x80 >>> (pos % 8).toUInt8) ≠ 0 := fun zero => by
      simp only [zero, bit, UInt8.toNat_zero, Bool.toNat_true, Nat.one_mul] at masked
      exact (Nat.two_pow_pos _).ne' masked.symm
    simp [nonzero]

/-- Within the vector, `codeSegment` is the negation of the mark. -/
theorem codeSegment_eq {bits : bitvec} {pos : Nat} (within : pos / 8 < bits.length) :
    bits.codeSegment pos = some !bits.marked pos := by
  simp [bitvec.codeSegment, bitvec.marked, List.getElem?_eq_getElem within, and_highMask_eq_zero]

/-- `bits[i] |= mask` marks the positions of byte `i` whose bits the mask has. -/
theorem orAt_marks {bits : bitvec} {i : Nat} (within : i < bits.length) (mask : UInt8) :
    ∃ bits', orAt bits i mask = some bits' ∧ bits'.length = bits.length ∧
      ∀ q, bits'.marked q = (bits.marked q || decide (q / 8 = i) && mask.toNat.testBit (7 - q % 8)) := by
  refine ⟨List.set bits i (bits[i] ||| mask), by simp [orAt, within], by simp, fun q => ?_⟩
  by_cases same : q / 8 = i
  · subst i
    simp [bitvec.marked, List.getElem?_set_self within, List.getElem?_eq_getElem within,
      UInt8.toNat_or, Nat.testBit_or]
  · simp [bitvec.marked, Ne.symm same, same]

/-- `set` marks its position and nothing else. -/
theorem set_marks {bits : bitvec} {pos : Nat} (within : pos / 8 < bits.length) :
    ∃ bits', bits.set pos = some bits' ∧ bits'.length = bits.length ∧
      ∀ q, bits'.marked q = (bits.marked q || decide (q = pos)) := by
  obtain ⟨bits', set, length', marks'⟩ := orAt_marks within (0x80 >>> (pos % 8).toUInt8)
  refine ⟨bits', set, length', fun q => ?_⟩
  have bit := (testBit_masks ⟨pos % 8, Nat.mod_lt _ (by decide)⟩ ⟨q % 8, Nat.mod_lt _ (by decide)⟩).1
  simp only [Fin.mk.injEq] at bit
  rw [marks', bit]
  -- A position is `pos` exactly when it has `pos`'s byte and `pos`'s offset in it.
  have same : (q / 8 = pos / 8 ∧ q % 8 = pos % 8) ↔ q = pos := by omega
  simp only [← same, Bool.decide_and]

/-- `set8` marks the eight positions from its own, across two bytes. -/
theorem set8_marks {bits : bitvec} {pos : Nat} (within : pos / 8 + 1 < bits.length) :
    ∃ bits', bits.set8 pos = some bits' ∧ bits'.length = bits.length ∧
      ∀ q, bits'.marked q = (bits.marked q || decide (pos ≤ q ∧ q < pos + 8)) := by
  obtain ⟨bits₁, first, length₁, marks₁⟩ :=
    orAt_marks (by omega : pos / 8 < bits.length) (0xFF >>> (pos % 8).toUInt8)
  obtain ⟨bits₂, second, length₂, marks₂⟩ :=
    orAt_marks (by omega : pos / 8 + 1 < bits₁.length) (~~~(0xFF >>> (pos % 8).toUInt8))
  refine ⟨bits₂, by simp [bitvec.set8, first, second], by omega, fun q => ?_⟩
  have bits := testBit_masks ⟨pos % 8, Nat.mod_lt _ (by decide)⟩ ⟨q % 8, Nat.mod_lt _ (by decide)⟩
  simp only [Fin.mk_le_mk, Fin.mk_lt_mk] at bits
  rw [marks₂, marks₁, bits.2.1, bits.2.2]
  -- The first byte takes the offsets from `pos`'s on, the second the offsets before it.
  have span : (q / 8 = pos / 8 ∧ pos % 8 ≤ q % 8 ∨ q / 8 = pos / 8 + 1 ∧ q % 8 < pos % 8) ↔
      (pos ≤ q ∧ q < pos + 8) := by omega
  simp only [Bool.or_assoc, ← span, Bool.decide_or, Bool.decide_and]

/-! ## The inner loops -/

/-- `setLoop` marks the `n` positions from `pc` when the vector holds them. -/
theorem setLoop_marks (n : Nat) : ∀ (bits : bitvec) (pc : Nat), (pc + n) / 8 < bits.length →
    ∃ bits', setLoop bits pc n = some (bits', pc + n) ∧ bits'.length = bits.length ∧
      ∀ q, bits'.marked q = (bits.marked q || decide (pc ≤ q ∧ q < pc + n)) := by
  induction n with
  | zero => exact fun bits pc _ => ⟨bits, rfl, rfl, fun q => by simp⟩
  | succ n ih =>
    intro bits pc within
    have here : pc / 8 < bits.length :=
      Nat.lt_of_le_of_lt (Nat.div_le_div_right (by omega)) within
    obtain ⟨bits₁, set, length₁, marks₁⟩ := set_marks here
    obtain ⟨bits', rest, length', marks'⟩ := ih bits₁ (pc + 1) (by rw [length₁]; omega)
    refine ⟨bits', by simp [setLoop, set, rest]; omega, by rw [length', length₁], fun q => ?_⟩
    rw [marks', marks₁]
    have span : (q = pc ∨ pc + 1 ≤ q ∧ q < pc + 1 + n) ↔ (pc ≤ q ∧ q < pc + (n + 1)) := by omega
    simp only [Bool.or_assoc, ← Bool.decide_or, span]

/-- `set8Loop` marks the `n` positions from `pc` when the vector holds them. -/
theorem set8Loop_marks (bits : bitvec) (pc n : Nat) (within : (pc + n) / 8 < bits.length) :
    ∃ bits', set8Loop bits pc n = some (bits', pc + n) ∧ bits'.length = bits.length ∧
      ∀ q, bits'.marked q = (bits.marked q || decide (pc ≤ q ∧ q < pc + n)) := by
  fun_induction set8Loop bits pc n with
  | case1 bits pc n ih =>
    -- Eight marks or more: `set8` at `pc`, whose second byte still lies below `(pc + n + 8) / 8`.
    have here : pc / 8 + 1 < bits.length :=
      Nat.lt_of_le_of_lt (by omega : pc / 8 + 1 ≤ (pc + (n + 8)) / 8) within
    obtain ⟨bits₁, set, length₁, marks₁⟩ := set8_marks here
    obtain ⟨bits', rest, length', marks'⟩ := ih bits₁ (by rw [length₁]; omega)
    refine ⟨bits', by simp [set, rest]; omega, by rw [length', length₁], fun q => ?_⟩
    rw [marks', marks₁]
    have span : (pc ≤ q ∧ q < pc + 8 ∨ pc + 8 ≤ q ∧ q < pc + 8 + n) ↔ (pc ≤ q ∧ q < pc + (n + 8)) := by
      omega
    simp only [Bool.or_assoc, ← Bool.decide_or, span]
  | case2 bits pc n fewer => exact setLoop_marks n bits pc within

/-! ## The outer loop -/

/-- The code's `numbits` of a push is the push's data size. -/
theorem numbits_toNat {op : UInt8} (push : PUSH1 ≤ op ∧ op ≤ PUSH32) :
    (op - PUSH1 + 1).toNat = pushSize op := by
  have bounds : 0x60 ≤ op.toNat ∧ op.toNat ≤ 0x7f := push
  rw [pushSize, if_pos bounds, UInt8.toNat_add, UInt8.toNat_sub_of_le _ _ push.1]
  simp only [PUSH1, UInt8.reduceToNat]
  omega

theorem pushSize_of_not_push {op : UInt8} (other : ¬(PUSH1 ≤ op ∧ op ≤ PUSH32)) : pushSize op = 0 :=
  if_neg other

theorem pushSize_le (op : UInt8) : pushSize op ≤ 32 := by
  unfold pushSize
  split <;> omega

/-- One iteration of the outer loop on an opcode: mark its push data, if any, and go past it. -/
theorem codeBitmapLoop_succ {code : Bytes} {pc : Nat} {op : UInt8} (found : code[pc]? = some op)
    (fuel : Nat) (bits : bitvec) :
    codeBitmapLoop code (fuel + 1) bits pc =
      (set8Loop bits (pc + 1) (pushSize op)).bind fun next => codeBitmapLoop code fuel next.1 next.2 := by
  by_cases push : PUSH1 ≤ op ∧ op ≤ PUSH32
  · simp [codeBitmapLoop, found, push, numbits_toNat push]
  · -- Any other opcode is a push of no data.
    simp [codeBitmapLoop, found, push, pushSize_of_not_push push, set8Loop, setLoop]

/-- What the outer loop has settled on reaching `pc`. -/
structure Scanned (code : Bytes) (bits : bitvec) (pc : Nat) : Prop where
  /-- The vector keeps the length `codeBitmap` gives it. -/
  length : bits.length = code.length / 8 + 5
  /-- The plain scan restarts at `pc`: no push before `pc` owes data past it. -/
  restart : (immediateData 0 code).drop pc = immediateData 0 (code.drop pc)
  /-- The bytes before `pc` are marked as the plain scan reads them; none from `pc` on is. -/
  marks : ∀ q < code.length,
    bits.marked q = (decide (q < pc) && (immediateData 0 code)[q]? == some true)

theorem scanned_start (code : Bytes) :
    Scanned code (List.replicate (code.length / 8 + 1 + 4) 0) 0 where
  length := by simp
  restart := rfl
  marks q _ := by
    simp only [bitvec.marked, List.getElem?_replicate, Nat.not_lt_zero, decide_false, Bool.false_and]
    split <;> simp

/-- One iteration of the outer loop keeps the invariant, at the position after the opcode's data. -/
theorem Scanned.step {code : Bytes} {bits : bitvec} {pc : Nat} {op : UInt8}
    (scanned : Scanned code bits pc) (found : code[pc]? = some op) :
    ∃ bits', set8Loop bits (pc + 1) (pushSize op) = some (bits', pc + 1 + pushSize op) ∧
      Scanned code bits' (pc + 1 + pushSize op) := by
  have here : pc < code.length := (List.getElem?_eq_some_iff.mp found).1
  have small := pushSize_le op
  -- The vector's four spare bytes hold the data of a push up to 32 bytes long.
  have within : (pc + 1 + pushSize op) / 8 < bits.length := by rw [scanned.length]; omega
  obtain ⟨bits', loop, length', marks'⟩ := set8Loop_marks bits (pc + 1) (pushSize op) within
  -- From `pc` on, the plain scan reads the opcode and then its data.
  have from_pc : ∀ j, (immediateData 0 code)[pc + j]? =
      (false :: immediateData (pushSize op) (code.drop (pc + 1)))[j]? := by
    intro j
    rw [← immediateData_drop_of_getElem? found, ← scanned.restart, List.getElem?_drop]
  refine ⟨bits', loop, ⟨by rw [length', scanned.length], ?_, fun q before => ?_⟩⟩
  · -- The push's data is skipped as the plain scan skips it.
    calc (immediateData 0 code).drop (pc + 1 + pushSize op)
        = ((immediateData 0 code).drop pc).drop (1 + pushSize op) := by
          rw [List.drop_drop, Nat.add_assoc]
      _ = (immediateData (pushSize op) (code.drop (pc + 1))).drop (pushSize op) := by
          rw [scanned.restart, immediateData_drop_of_getElem? found, Nat.add_comm, List.drop_succ_cons]
      _ = immediateData 0 (code.drop (pc + 1 + pushSize op)) := by
          rw [drop_immediateData, List.drop_drop]
  · rw [marks' q, scanned.marks q before]
    rcases Nat.lt_or_ge q pc with earlier | later
    · have inside : q < pc + 1 + pushSize op := by omega
      simp [earlier, inside, show ¬pc + 1 ≤ q by omega]
    · obtain ⟨j, rfl⟩ := Nat.exists_eq_add_of_le later
      rw [from_pc j]
      cases j with
      | zero => simp
      | succ j =>
        by_cases data : j < pushSize op
        · -- A byte of the push's data, which the plain scan owes.
          have within : j < (code.drop (pc + 1)).length := by
            simp only [List.length_drop]
            omega
          have owed := getElem?_immediateData_of_lt data within
          simp [List.getElem?_cons_succ, owed]
        · have past : ¬pc + (j + 1) < pc + 1 + pushSize op := by omega
          simp [past]

/-- With an iteration to spare for each byte left, the outer loop runs to the end of the code. -/
theorem codeBitmapLoop_scanned {code : Bytes} :
    ∀ (fuel : Nat) (bits : bitvec) (pc : Nat), Scanned code bits pc → code.length - pc < fuel →
      ∃ bits', codeBitmapLoop code fuel bits pc = some bits' ∧
        ∃ pc', code.length ≤ pc' ∧ Scanned code bits' pc' := by
  intro fuel
  induction fuel with
  | zero => exact fun _ _ _ spare => absurd spare (Nat.not_lt_zero _)
  | succ fuel ih =>
    intro bits pc scanned spare
    cases found : code[pc]? with
    | none =>
      -- `pc < uint64(len(code))` fails and the loop stops.
      have done : code.length ≤ pc := List.getElem?_eq_none_iff.mp found
      exact ⟨bits, by simp [codeBitmapLoop, found], pc, done, scanned⟩
    | some op =>
      have here : pc < code.length := (List.getElem?_eq_some_iff.mp found).1
      obtain ⟨bits', loop, scanned'⟩ := scanned.step found
      rw [codeBitmapLoop_succ found, loop, Option.bind_some]
      exact ih bits' _ scanned' (by omega)

/--
`codeBitmap` never indexes past its vector, and reads every position of the code as code exactly
when the plain scan starts an instruction there.
-/
theorem codeBitmap_spec (code : Bytes) :
    ∃ bits, codeBitmap code = some bits ∧ bits.length = code.length / 8 + 5 ∧
      ∀ pos < code.length, bits.codeSegment pos = some (instructionStart code pos) := by
  obtain ⟨bits, run, pc, done, scanned⟩ :=
    codeBitmapLoop_scanned (code.length + 1) _ 0 (scanned_start code) (by omega)
  refine ⟨bits, run, scanned.length, fun pos within => ?_⟩
  have inside : pos / 8 < bits.length := by rw [scanned.length]; omega
  rw [codeSegment_eq inside, scanned.marks pos within, instructionStart]
  obtain ⟨read, entry⟩ : ∃ read, (immediateData 0 code)[pos]? = some read :=
    ⟨_, List.getElem?_eq_getElem (by simpa using within)⟩
  cases read <;> simp [entry, show pos < pc by omega]

/-! ## Valid jump destinations -/

/-- The analyses a contract has cached are analyses of its code. -/
structure Contract.Analysed (c : Contract) : Prop where
  /-- The parent context's analysis under the contract's hash, which is read for a nonzero hash. -/
  shared : c.CodeHash ≠ FixedBytes.zero 32 →
    ∀ analysis, c.jumpdests.lookup c.CodeHash = some analysis → codeBitmap c.Code = some analysis
  /-- The contract's own analysis. -/
  own : ∀ analysis, c.analysis = some analysis → codeBitmap c.Code = some analysis

/-- A destination of 63 bits or more, in `big.Int`'s count, is one from `2^62` on. -/
theorem size_ge_63_iff (dest : Nat) : 63 ≤ dest.size ↔ 2 ^ 62 ≤ dest := by
  rw [← Nat.lt_size]
  omega

/--
`validJumpdest` accepts a destination exactly when it is below `2^62` and the code, holds a
`JUMPDEST` there, and starts an instruction of the plain scan there. It never panics, and the
contract it leaves has the same code and caches that are still analyses of that code.
-/
theorem validJumpdest_eq {c : Contract} (analysed : c.Analysed) (dest : Nat) :
    ∃ c', c.validJumpdest dest = some (decide (dest < 2 ^ 62 ∧ dest < c.Code.length ∧
        c.Code[dest]? = some JUMPDEST ∧ instructionStart c.Code dest = true), c') ∧
      c'.Analysed ∧ c'.Code = c.Code ∧ c'.CodeHash = c.CodeHash := by
  obtain ⟨bits, computed, -, segments⟩ := codeBitmap_spec c.Code
  unfold Contract.validJumpdest
  dsimp only
  by_cases out : dest.size ≥ 63 ∨ dest % 2 ^ 64 ≥ c.Code.length
  · -- Refused before the opcode is read: the destination is too wide or past the code.
    have refused : ¬(dest < 2 ^ 62 ∧ dest < c.Code.length ∧ c.Code[dest]? = some JUMPDEST ∧
        instructionStart c.Code dest = true) := by
      rintro ⟨small, within, -⟩
      rw [ge_iff_le, size_ge_63_iff, Nat.mod_eq_of_lt (by omega)] at out
      omega
    exact ⟨c, by rw [if_pos out, decide_eq_false refused], analysed, rfl, rfl⟩
  have small : dest < 2 ^ 62 := by
    have := mt (size_ge_63_iff dest).mpr (by omega)
    omega
  have udest : dest % 2 ^ 64 = dest := Nat.mod_eq_of_lt (by omega)
  have within : dest < c.Code.length := by omega
  rw [if_neg out]
  simp only [udest]
  by_cases opcode : c.Code[dest]? ≠ some JUMPDEST
  · have refused : ¬(dest < 2 ^ 62 ∧ dest < c.Code.length ∧ c.Code[dest]? = some JUMPDEST ∧
        instructionStart c.Code dest = true) := fun accepted => opcode accepted.2.2.1
    exact ⟨c, by rw [if_pos opcode, decide_eq_false refused], analysed, rfl, rfl⟩
  rw [if_neg opcode]
  -- Past the guards, the answer is the analysis's.
  have passes : (dest < 2 ^ 62 ∧ dest < c.Code.length ∧ c.Code[dest]? = some JUMPDEST ∧
      instructionStart c.Code dest = true) ↔ instructionStart c.Code dest = true :=
    ⟨fun accepted => accepted.2.2.2, fun start => ⟨small, within, not_not.mp opcode, start⟩⟩
  have answer : decide (dest < 2 ^ 62 ∧ dest < c.Code.length ∧ c.Code[dest]? = some JUMPDEST ∧
      instructionStart c.Code dest = true) = instructionStart c.Code dest :=
    Bool.eq_iff_iff.mpr (by rw [decide_eq_true_iff]; exact passes)
  rw [answer]
  have segment := segments dest within
  by_cases hashed : c.CodeHash ≠ FixedBytes.zero 32
  · -- A contract with a hash reads, or fills, the parent context's map.
    rw [if_pos hashed]
    cases cached : c.jumpdests.lookup c.CodeHash with
    | some analysis =>
      obtain rfl : bits = analysis :=
        Option.some.inj (computed.symm.trans (analysed.shared hashed _ cached))
      exact ⟨c, by simp [segment], analysed, rfl, rfl⟩
    | none =>
      refine ⟨{ c with jumpdests := c.jumpdests.insert c.CodeHash bits },
        by simp [computed, segment], ⟨fun _ analysis stored => ?_, analysed.own⟩, rfl, rfl⟩
      simp only [AList.lookup_insert, Option.some.injEq] at stored
      rw [computed, stored]
  · -- Code without a hash reads, or fills, the contract's own cache.
    rw [if_neg hashed]
    cases cached : c.analysis with
    | some analysis =>
      obtain rfl : bits = analysis := Option.some.inj (computed.symm.trans (analysed.own _ cached))
      exact ⟨c, by simp [segment], analysed, rfl, rfl⟩
    | none =>
      refine ⟨{ c with analysis := some bits }, by simp [computed, segment],
        ⟨analysed.shared, fun analysis stored => ?_⟩, rfl, rfl⟩
      simp only [Option.some.injEq] at stored
      rw [computed, stored]

/-- Code that pushes a `JUMPDEST` byte as data and then has a real one, with nothing cached. -/
def pushedJumpdest : Contract := ⟨∅, none, [PUSH1, JUMPDEST, JUMPDEST], FixedBytes.zero 32⟩

/--
For every code of at most `2^62` bytes, which is every code Go can hold, `codeBitmap` stays inside
its vector and reads each position of the code as code exactly when the plain scan starts an
instruction there. So on a contract whose cached analyses are of its code, `validJumpdest` accepts
exactly the destinations inside the code that hold a `JUMPDEST` and start an instruction, and
leaves caches that are still of its code.
-/
theorem validJumpdest_iff_instruction_start (code : Bytes) (receivable : code.length ≤ 2 ^ 62) :
    (∃ bits, codeBitmap code = some bits ∧
      ∀ pos < code.length, bits.codeSegment pos = some (instructionStart code pos)) ∧
    ∀ c : Contract, c.Code = code → c.Analysed → ∀ dest, ∃ c',
      c.validJumpdest dest = some (decide (dest < code.length ∧
        code[dest]? = some JUMPDEST ∧ instructionStart code dest = true), c') ∧
      c'.Analysed ∧ c'.Code = code ∧ c'.CodeHash = c.CodeHash := by
  obtain ⟨bits, computed, -, segments⟩ := codeBitmap_spec code
  refine ⟨⟨bits, computed, segments⟩, fun c same analysed dest => ?_⟩
  subst code
  obtain ⟨c', answer, kept⟩ := validJumpdest_eq analysed dest
  -- The `BitLen() >= 63` guard never refuses a destination inside such code.
  have guard : (dest < 2 ^ 62 ∧ dest < c.Code.length ∧ c.Code[dest]? = some JUMPDEST ∧
      instructionStart c.Code dest = true) ↔ (dest < c.Code.length ∧
      c.Code[dest]? = some JUMPDEST ∧ instructionStart c.Code dest = true) :=
    ⟨fun accepted => accepted.2, fun accepted => ⟨by omega, accepted⟩⟩
  exact ⟨c', by rw [answer, decide_eq_decide.mpr guard], kept⟩

/-- The pushed `JUMPDEST` byte is data and refused; the real one is accepted. -/
theorem validJumpdest_iff_instruction_start_pushed :
    pushedJumpdest.Code.length ≤ 2 ^ 62 ∧ pushedJumpdest.Analysed ∧
      (∃ c', pushedJumpdest.validJumpdest 1 = some (false, c')) ∧
      ∃ c', pushedJumpdest.validJumpdest 2 = some (true, c') := by
  have receivable : pushedJumpdest.Code.length ≤ 2 ^ 62 := by decide
  have analysed : pushedJumpdest.Analysed :=
    ⟨fun _ _ cached => by simp [pushedJumpdest] at cached,
      fun _ cached => by simp [pushedJumpdest] at cached⟩
  obtain ⟨data, data_answer, -⟩ :=
    (validJumpdest_iff_instruction_start pushedJumpdest.Code receivable).2 pushedJumpdest rfl
      analysed 1
  obtain ⟨start, start_answer, -⟩ :=
    (validJumpdest_iff_instruction_start pushedJumpdest.Code receivable).2 pushedJumpdest rfl
      analysed 2
  refine ⟨receivable, analysed, ⟨data, ?_⟩, ⟨start, ?_⟩⟩
  -- The guards and the plain scan evaluate on this code.
  · rw [data_answer]
    congr 2
  · rw [start_answer]
    congr 2

end Vm

end Harmony
