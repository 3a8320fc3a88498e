import Harmony.Vm.GasTable
import Harmony.Lib.Transition

/-!
What `memoryGasCost` charges against the fee schedule: the sizes it admits whose fee is exact, the
sizes whose square wraps, and the interpreter's memory charges over a whole run.
-/

namespace Harmony

namespace Vm

/-- The schedule's cost grows with the word count. -/
theorem memoryCost_mono : Monotone memoryCost := by
  intro a b le
  -- Both the linear and the quadratic term grow, the latter through the square.
  have squares : a * a ≤ b * b := Nat.mul_le_mul le le
  have quads : a * a / 512 ≤ b * b / 512 := Nat.div_le_div_right squares
  simp only [memoryCost, MemoryGas, QuadCoeffDiv, UInt64.reduceToNat]
  omega

/-- Admitted sizes round up to words without wrapping. -/
theorem toWordSize_toNat {size : UInt64} (admitted : size.toNat ≤ 0xffffffffe0) :
    (toWordSize size).toNat = (size.toNat + 31) / 32 := by
  -- The admission bound is far below the sizes whose `size + 31` wraps.
  have fits : ¬ size > 0xffffffffffffffff - 31 := by
    rw [gt_iff_lt, UInt64.lt_iff_toNat_lt]
    simp
    omega
  unfold toWordSize
  rw [if_neg fits, UInt64.toNat_div, UInt64.toNat_add]
  simp
  omega

/-- A size is at most its word count times 32, counted without wrapping. -/
theorem le_toWordSize_toNat_mul (size : UInt64) : size.toNat ≤ (toWordSize size).toNat * 32 := by
  have bound := size.toNat_lt
  unfold toWordSize
  split_ifs with near
  · -- Near the top the count is `2^59`, whose product by 32 is `2^64`.
    simp only [UInt64.reduceDiv, UInt64.reduceAdd, UInt64.reduceToNat]
    omega
  · have small : size.toNat + 31 < 2 ^ 64 := by
      rw [gt_iff_lt, UInt64.lt_iff_toNat_lt] at near
      simp at near
      omega
    rw [UInt64.toNat_div, UInt64.toNat_add]
    simp only [UInt64.reduceToNat, Nat.mod_eq_of_lt small]
    omega

/-- A product by 32 that `SafeMul` does not report is the product of the numbers. -/
theorem toNat_mul_32 {w : UInt64} (nonzero : w ≠ 0) (fits : ¬ 32 > 0xffffffffffffffff / w) :
    (w * 32).toNat = w.toNat * 32 := by
  have positive : 0 < w.toNat := by
    rw [Nat.pos_iff_ne_zero, Ne, ← UInt64.toNat_zero, UInt64.toNat_inj]
    exact nonzero
  rw [gt_iff_lt, UInt64.lt_iff_toNat_lt, UInt64.toNat_div] at fits
  simp only [UInt64.reduceToNat, not_lt] at fits
  have bounded := (Nat.le_div_iff_mul_le positive).mp fits
  rw [UInt64.toNat_mul]
  simp only [UInt64.reduceToNat]
  exact Nat.mod_eq_of_lt (by omega)

/--
The fee of fewer than 2^35 words as Go computes it: the square wraps modulo 2^64, and the products
with the constants and the sum do not.
-/
theorem totalFee_toNat {words : UInt64} (bounded : words.toNat < 2 ^ 35) :
    (words * MemoryGas + words * words / QuadCoeffDiv).toNat =
      MemoryGas.toNat * words.toNat + words.toNat * words.toNat % 2 ^ 64 / QuadCoeffDiv.toNat := by
  -- The linear term stays below 2^37 and the quadratic one below 2^55.
  rw [UInt64.toNat_add, UInt64.toNat_mul, UInt64.toNat_div, UInt64.toNat_mul]
  simp [MemoryGas, QuadCoeffDiv]
  omega

/-- Below 2^32 words nothing wraps, and Go's fee is the schedule's cost. -/
theorem totalFee_eq_memoryCost {words : UInt64} (bounded : words.toNat < 2 ^ 32) :
    (words * MemoryGas + words * words / QuadCoeffDiv).toNat = memoryCost words.toNat := by
  have square : words.toNat * words.toNat < 2 ^ 64 := by
    calc words.toNat * words.toNat < 2 ^ 32 * 2 ^ 32 := Nat.mul_lt_mul'' bounded bounded
      _ = 2 ^ 64 := by norm_num
  rw [totalFee_toNat (by omega), Nat.mod_eq_of_lt square, memoryCost]

/-- Growing the memory charges the new size's fee less the recorded one, and records it. -/
theorem memoryGasCost_of_grows {mem : Memory} {newMemSize : UInt64} (nonzero : newMemSize ≠ 0)
    (admitted : newMemSize.toNat ≤ 0xffffffffe0) (fits : mem.Len < 2 ^ 64)
    (grows : mem.Len < (newMemSize.toNat + 31) / 32 * 32) :
    memoryGasCost mem newMemSize =
      let words := toWordSize newMemSize
      let total := words * MemoryGas + words * words / QuadCoeffDiv
      .ok (total - mem.lastGasCost, { mem with lastGasCost := total }) := by
  have accepted : ¬ newMemSize > 0xffffffffe0 := by
    rw [gt_iff_lt, UInt64.lt_iff_toNat_lt]
    simpa using admitted
  have larger : toWordSize newMemSize * 32 > UInt64.ofNat mem.Len := by
    rw [gt_iff_lt, UInt64.lt_iff_toNat_lt, UInt64.toNat_mul, toWordSize_toNat admitted,
      UInt64.toNat_ofNat_of_lt' fits]
    simp
    omega
  unfold memoryGasCost
  rw [if_neg nonzero, if_neg accepted]
  simp only [larger, if_true]

/-- A size the memory already covers costs nothing and leaves the memory as it is. -/
theorem memoryGasCost_of_covered {mem : Memory} {newMemSize : UInt64}
    (admitted : newMemSize.toNat ≤ 0xffffffffe0) (fits : mem.Len < 2 ^ 64)
    (covered : (newMemSize.toNat + 31) / 32 * 32 ≤ mem.Len) :
    memoryGasCost mem newMemSize = .ok (0, mem) := by
  have accepted : ¬ newMemSize > 0xffffffffe0 := by
    rw [gt_iff_lt, UInt64.lt_iff_toNat_lt]
    simpa using admitted
  have within : ¬ toWordSize newMemSize * 32 > UInt64.ofNat mem.Len := by
    rw [gt_iff_lt, UInt64.lt_iff_toNat_lt, UInt64.toNat_mul, toWordSize_toNat admitted,
      UInt64.toNat_ofNat_of_lt' fits]
    simp
    omega
  unfold memoryGasCost
  -- A zero size returns before the admission check; any other size reaches the comparison.
  by_cases zero : newMemSize = 0
  · rw [if_pos zero]
  · rw [if_neg zero, if_neg accepted]
    exact if_neg within

/--
For every admitted size of 2^32 words or more that grows a memory charged by the schedule, the
fee differs from the schedule's difference of costs: the square has wrapped.
-/
theorem memoryGasCost_fee_differs_from_schedule {mem : Memory} {newMemSize : UInt64}
    (admitted : newMemSize.toNat ≤ 0xffffffffe0) (large : 2 ^ 37 - 32 < newMemSize.toNat)
    (fits : mem.Len < 2 ^ 64) (grows : mem.Len < (newMemSize.toNat + 31) / 32 * 32)
    (charged : mem.lastGasCost.toNat = memoryCost (mem.Len / 32)) :
    ∃ fee mem', memoryGasCost mem newMemSize = .ok (fee, mem') ∧
      fee.toNat ≠ memoryCost ((newMemSize.toNat + 31) / 32) - memoryCost (mem.Len / 32) := by
  have nonzero : newMemSize ≠ 0 := by
    intro zero
    simp [zero] at large
  refine ⟨_, _, memoryGasCost_of_grows nonzero admitted fits grows, ?_⟩
  -- The square of 2^32 words or more wraps at least once, and of fewer than 2^35 words fewer
  -- than 64 times; each wrap drops 2^55 from the quadratic fee.
  have words := toWordSize_toNat admitted
  set w := (newMemSize.toNat + 31) / 32 with w_def
  have wide : 2 ^ 32 ≤ w := by omega
  have narrow : w < 2 ^ 35 := by omega
  have square_wraps : 2 ^ 64 ≤ w * w := by
    calc 2 ^ 64 = 2 ^ 32 * 2 ^ 32 := by norm_num
      _ ≤ w * w := Nat.mul_le_mul wide wide
  have square_bounded : w * w < 2 ^ 70 := by
    calc w * w < 2 ^ 35 * 2 ^ 35 := Nat.mul_lt_mul'' narrow narrow
      _ = 2 ^ 70 := by norm_num
  have total := totalFee_toNat (words ▸ narrow)
  rw [words] at total
  have last := UInt64.toNat_lt mem.lastGasCost
  have cheaper : memoryCost (mem.Len / 32) ≤ memoryCost w := memoryCost_mono (by omega)
  rw [UInt64.toNat_sub, total, charged]
  rw [charged] at last
  simp only [memoryCost, MemoryGas, QuadCoeffDiv, UInt64.reduceToNat] at last cheaper ⊢
  omega

/-- The largest admitted size on a new memory: the fee is the test's, not the schedule's. -/
theorem memoryGasCost_fee_differs_at_admission_bound :
    (0xffffffffe0 : UInt64).toNat ≤ 0xffffffffe0 ∧ 2 ^ 37 - 32 < (0xffffffffe0 : UInt64).toNat ∧
      Memory.Len ⟨[], 0⟩ < 2 ^ 64 ∧ Memory.Len ⟨[], 0⟩ < ((0xffffffffe0 : UInt64).toNat + 31) / 32 * 32 ∧
      (0 : UInt64).toNat = memoryCost (Memory.Len ⟨[], 0⟩ / 32) ∧
      ∃ fee mem', memoryGasCost ⟨[], 0⟩ 0xffffffffe0 = .ok (fee, mem') ∧
        fee.toNat ≠ memoryCost (((0xffffffffe0 : UInt64).toNat + 31) / 32) -
          memoryCost (Memory.Len ⟨[], 0⟩ / 32) :=
  ⟨by decide, by decide, by decide, by decide, by decide,
    memoryGasCost_fee_differs_from_schedule (by decide) (by decide) (by decide) (by decide)
      (by decide)⟩

/-- Resizing keeps the recorded fee. -/
@[simp] theorem Memory.Resize_lastGasCost (mem : Memory) (size : UInt64) :
    (mem.Resize size).lastGasCost = mem.lastGasCost := by
  unfold Memory.Resize
  split <;> rfl

/-- Resizing to a size the memory covers leaves it as it is. -/
theorem Memory.Resize_of_covered {mem : Memory} {size : UInt64} (fits : mem.Len < 2 ^ 64)
    (covered : size.toNat ≤ mem.Len) : mem.Resize size = mem := by
  have within : ¬ UInt64.ofNat mem.Len < size := by
    rw [UInt64.lt_iff_toNat_lt, UInt64.toNat_ofNat_of_lt' fits]
    omega
  simp only [Memory.Resize, within, if_false]

/-- Resizing to a larger size makes the memory exactly that long. -/
theorem Memory.Resize_Len {mem : Memory} {size : UInt64} (fits : mem.Len < 2 ^ 64)
    (grows : mem.Len < size.toNat) : (mem.Resize size).Len = size.toNat := by
  have larger : UInt64.ofNat mem.Len < size := by
    rw [UInt64.lt_iff_toNat_lt, UInt64.toNat_ofNat_of_lt' fits]
    exact grows
  -- The appended zero bytes are the difference of the two sizes, which does not wrap.
  have added := UInt64.toNat_sub_of_le _ _ (UInt64.le_of_lt larger)
  rw [UInt64.toNat_ofNat_of_lt' fits] at added
  rw [Memory.Resize, if_pos larger, Memory.Len, List.length_append, List.length_replicate, added]
  simp only [Memory.Len] at grows ⊢
  omega

/-- The memory's size fits a `uint64` and its recorded fee is the schedule's cost of its words. -/
def Charged (mem : Memory) : Prop :=
  mem.Len < 2 ^ 64 ∧ mem.lastGasCost.toNat = memoryCost (mem.Len / 32)

/--
An interpreter step touching fewer than 2^32 words keeps the memory charged by the schedule, and
charges exactly what the schedule's cost of the memory rises by.
-/
theorem expandMemory_charged {mem mem' : Memory} {memSize fee : UInt64}
    (small : memSize.toNat ≤ 2 ^ 37 - 32) (charged : Charged mem)
    (step : MemoryStep mem memSize fee mem') :
    Charged mem' ∧ memoryCost (mem'.Len / 32) = memoryCost (mem.Len / 32) + fee.toNat := by
  obtain ⟨fits, paid⟩ := charged
  have words : (toWordSize memSize).toNat = (memSize.toNat + 31) / 32 := toWordSize_toNat (by omega)
  set w := (memSize.toNat + 31) / 32 with w_def
  -- The rounded size `w * 32` is a whole number of words, which `memoryGasCost` rounds to `w`.
  have no_overflow : ¬ 2 ^ 64 ≤ (toWordSize memSize).toNat * 32 := by omega
  have sized : (toWordSize memSize * 32).toNat = w * 32 := by
    rw [UInt64.toNat_mul, words]
    simp only [UInt64.reduceToNat]
    omega
  have rounded : ((toWordSize memSize * 32).toNat + 31) / 32 = w := by omega
  have words' : (toWordSize (toWordSize memSize * 32)).toNat = w := by
    rw [toWordSize_toNat (by omega), rounded]
  unfold MemoryStep expandMemory gasReturn at step
  rw [if_neg no_overflow] at step
  dsimp only at step
  by_cases grows : mem.Len < w * 32
  · -- The memory grows to `w` words and is charged the difference of the two costs.
    have nonzero : toWordSize memSize * 32 ≠ 0 := by
      intro zero
      rw [zero, UInt64.toNat_zero] at sized
      omega
    have positive : toWordSize memSize * 32 > 0 := by
      rw [gt_iff_lt, UInt64.lt_iff_toNat_lt, sized]
      simp only [UInt64.reduceToNat]
      omega
    rw [memoryGasCost_of_grows nonzero (by omega) fits (by omega)] at step
    simp only [positive, if_true, Except.ok.injEq, Prod.mk.injEq] at step
    obtain ⟨rfl, rfl⟩ := step
    have total := @totalFee_eq_memoryCost (toWordSize (toWordSize memSize * 32)) (by omega)
    rw [words'] at total
    have cheaper : memoryCost (mem.Len / 32) ≤ memoryCost w := memoryCost_mono (by omega)
    have grown : ∀ last, (Memory.Resize { mem with lastGasCost := last } (toWordSize memSize * 32)).Len
        = w * 32 := fun last =>
      (@Memory.Resize_Len { mem with lastGasCost := last } _ fits (sized ▸ grows)).trans sized
    refine ⟨⟨by rw [grown]; omega, ?_⟩, ?_⟩
    · rw [grown, Nat.mul_div_cancel _ (by norm_num), Memory.Resize_lastGasCost]
      exact total
    · rw [grown, Nat.mul_div_cancel _ (by norm_num), UInt64.toNat_sub_of_le _ _ ?_, total, paid]
      · omega
      · rw [UInt64.le_iff_toNat_le, total, paid]
        exact cheaper
  · -- The memory already holds `w` words: nothing is charged and nothing changes.
    rw [memoryGasCost_of_covered (by omega) fits (by omega)] at step
    simp only [Except.ok.injEq, Prod.mk.injEq] at step
    obtain ⟨rfl, rfl⟩ := step
    rw [Memory.Resize_of_covered fits (by omega), ite_self]
    exact ⟨⟨fits, paid⟩, rfl⟩

set_option maxRecDepth 10000 in
/-- Growing a new memory to one word charges three. -/
theorem memoryStep_grown : MemoryStep ⟨[], 0⟩ 32 3 ⟨List.replicate 32 0, 3⟩ := by
  unfold MemoryStep
  decide

set_option maxRecDepth 10000 in
/-- Reading within that word charges nothing. -/
theorem memoryStep_within :
    MemoryStep ⟨List.replicate 32 0, 3⟩ 20 0 ⟨List.replicate 32 0, 3⟩ := by
  unfold MemoryStep
  decide

/--
Over every run of interpreter steps touching fewer than 2^32 words each, from a memory charged by
the schedule, the memory stays charged by the schedule and the fees add up to the schedule's cost
of the final memory less that of the first.
-/
theorem expandMemory_run_charges_schedule {mem mem' : Memory} {trace : List (UInt64 × UInt64)}
    (run : Transition.Run MemoryStep mem trace mem')
    (small : ∀ entry ∈ trace, entry.1.toNat ≤ 2 ^ 37 - 32)
    (fits : mem.Len < 2 ^ 64) (charged : mem.lastGasCost.toNat = memoryCost (mem.Len / 32)) :
    mem'.lastGasCost.toNat = memoryCost (mem'.Len / 32) ∧
      (trace.map fun entry => entry.2.toNat).sum =
        memoryCost (mem'.Len / 32) - memoryCost (mem.Len / 32) := by
  -- The schedule's cost of the memory is the potential each step raises by its fee.
  obtain ⟨⟨-, paid⟩, total⟩ := run.potential_sum (fun mem => memoryCost (mem.Len / 32))
    UInt64.toNat
    (fun (charged : Charged _) (small : UInt64.toNat _ ≤ 2 ^ 37 - 32) step =>
      expandMemory_charged small charged step)
    ⟨fits, charged⟩ small
  exact ⟨paid, by omega⟩

/-- A new memory grown to one word by one `RETURN` and then read within it by another. -/
theorem expandMemory_run_charges_schedule_two_returns :
    Transition.Run MemoryStep ⟨[], 0⟩ [(32, 3), (20, 0)] ⟨List.replicate 32 0, 3⟩ ∧
      (∀ entry ∈ [((32 : UInt64), (3 : UInt64)), (20, 0)], entry.1.toNat ≤ 2 ^ 37 - 32) ∧
      Memory.Len ⟨[], 0⟩ < 2 ^ 64 ∧ (0 : UInt64).toNat = memoryCost (Memory.Len ⟨[], 0⟩ / 32) ∧
      (3 : UInt64).toNat = memoryCost (Memory.Len ⟨List.replicate 32 0, 3⟩ / 32) ∧
      ([((32 : UInt64), (3 : UInt64)), (20, 0)].map fun entry => entry.2.toNat).sum =
        memoryCost (Memory.Len ⟨List.replicate 32 0, 3⟩ / 32) - memoryCost (Memory.Len ⟨[], 0⟩ / 32) := by
  have run := Transition.Run.cons memoryStep_grown (.cons memoryStep_within (.nil _))
  have small : ∀ entry ∈ [((32 : UInt64), (3 : UInt64)), (20, 0)], entry.1.toNat ≤ 2 ^ 37 - 32 := by
    simp
  exact ⟨run, small, by decide, by decide,
    expandMemory_run_charges_schedule run small (by decide) (by decide)⟩

end Vm

end Harmony
