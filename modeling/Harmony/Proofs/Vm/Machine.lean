import Harmony.Vm.Machine
import Harmony.Proofs.Vm.GasTable

/-!
The interpreter's stack and memory: what each operation of `stack.go` and `memory.go` returns
when its operands are in range, and that it cannot panic there.

A memory range is in range when its end is within the store, and the store is below `2^63`
bytes, where Go's `int64` and `uint64` arithmetic on offsets does not wrap. The interpreter keeps
its memory below `0xffffffffe0` bytes, far inside that.
-/

namespace Harmony

open Go

namespace Vm

/-! ## Computations that do not panic -/

/-- A computation of the interpreter that succeeds or returns an error, and does not panic. -/
def NoPanic {α : Type} (x : Exec α) : Prop := ∀ what, x ≠ .error (.panic what)

namespace NoPanic

variable {α β : Type}

@[simp] theorem ok (a : α) : NoPanic (.ok a : Exec α) := by
  intro what
  simp

@[simp] theorem pure (a : α) : NoPanic (Pure.pure a : Exec α) := ok a

@[simp] theorem error (err : VmError) : NoPanic (throw (.error err) : Exec α) := by
  intro what
  simp [throw, throwThe, MonadExceptOf.throw]

/-- A computation whose first part does not panic, nor any continuation after its success. -/
theorem bind {x : Exec α} {f : α → Exec β} (first : NoPanic x)
    (rest : ∀ a, x = .ok a → NoPanic (f a)) : NoPanic (x >>= f) := by
  intro what
  cases ran : x with
  | error e =>
    -- The failure of the first part is the whole computation's, and it is not a panic.
    have : e ≠ .panic what := fun same => first what (by rw [ran, same])
    exact fun failed => this (Except.error.inj failed)
  | ok a => exact rest a ran what

/-- A bind does not panic when neither part does, the second after the first's success. -/
@[simp] theorem bind_iff {x : Exec α} {f : α → Exec β} :
    NoPanic (x >>= f) ↔ NoPanic x ∧ ∀ a, x = .ok a → NoPanic (f a) := by
  constructor
  · intro whole
    cases ran : x with
    | error e =>
      -- A failed first part is the whole computation's failure.
      refine ⟨fun what same => whole what ?_, fun a failed => by cases failed⟩
      rw [ran, same]
      rfl
    | ok a =>
      refine ⟨ok a, fun b same => ?_⟩
      cases same
      intro what failed
      exact whole what (by rw [ran]; exact failed)
  · exact fun ⟨first, rest⟩ => bind first rest

@[simp] theorem ite_iff {c : Prop} [Decidable c] {x y : Exec α} :
    NoPanic (if c then x else y) ↔ (c → NoPanic x) ∧ (¬c → NoPanic y) := by
  by_cases holds : c <;> simp [holds]

@[simp] theorem map_iff {x : Exec α} {f : α → β} : NoPanic (f <$> x) ↔ NoPanic x := by
  cases x <;> simp [NoPanic, Functor.map, Except.map]

end NoPanic

namespace Exec

variable {α β : Type}

/-- A computation succeeds when its first part does and then its continuation. -/
@[simp] theorem bind_eq_ok {x : Exec α} {f : α → Exec β} {b : β} :
    x >>= f = .ok b ↔ ∃ a, x = .ok a ∧ f a = .ok b := by
  cases x <;> simp [bind, Except.bind]

@[simp] theorem ok_bind {a : α} {f : α → Exec β} : (.ok a : Exec α) >>= f = f a := rfl

@[simp] theorem throw_bind {e : Fault} {f : α → Exec β} : (throw e : Exec α) >>= f = throw e := rfl

/-- A computation's result mapped, as `simp` writes a bind followed by `pure`. -/
@[simp] theorem map_eq_ok {x : Exec α} {f : α → β} {b : β} :
    f <$> x = .ok b ↔ ∃ a, x = .ok a ∧ f a = b := by
  cases x <;> simp [Functor.map, Except.map]

@[simp] theorem pure_eq_ok {a b : α} : (pure a : Exec α) = .ok b ↔ a = b := by
  simp [pure, Except.pure]

@[simp] theorem throw_ne_ok {f : Fault} {b : α} : (throw f : Exec α) ≠ .ok b := by
  simp [throw, throwThe, MonadExceptOf.throw]

end Exec

/-! ## Words -/

/-- A value below `2^63` is its own `int64`. -/
theorem toInt64_of_lt {v : Nat} (small : v < 2 ^ 63) : toInt64 v = v := by
  unfold toInt64 intOfUint64
  rw [Nat.mod_eq_of_lt (by omega), if_pos small]

@[simp] theorem toInt64_zero : toInt64 0 = 0 := toInt64_of_lt (by norm_num)

/-- A number below `2^63` is its own `uint64`. -/
theorem toNat_ofNat_small {n : Nat} (small : n < 2 ^ 63) : (UInt64.ofNat n).toNat = n :=
  UInt64.toNat_ofNat_of_lt' (lt_trans small (by decide))

/-- A `uint64` sum is at most the sum of the numbers. -/
theorem toNat_add_le (a b : UInt64) : (a + b).toNat ≤ a.toNat + b.toNat := by
  rw [UInt64.toNat_add]
  exact Nat.mod_le _ _

/-! ## The stack -/

namespace Stack

@[simp] theorem pop_cons (d : Nat) (st : Stack) : pop (d :: st) = .ok (d, st) := rfl

@[simp] theorem length_push (d : Nat) (st : Stack) : (st.push d).length = st.length + 1 := rfl

/-- An item below the top's depth is read without a panic. -/
theorem Back_of_lt {st : Stack} {n : Nat} (within : n < st.length) : st.Back n = .ok st[n] := by
  simp [Back, List.getElem?_eq_getElem within, pure, Except.pure]

theorem Back_noPanic {st : Stack} {n : Nat} (within : n < st.length) : NoPanic (st.Back n) := by
  rw [Back_of_lt within]
  exact NoPanic.ok _

/-- A swap within the stack exchanges two of its items and keeps its depth. -/
theorem swap_of_le {st : Stack} {n : Nat} (positive : 0 < n) (within : n ≤ st.length) :
    st.swap n = .ok ((st.set 0 st[n - 1]).set (n - 1) st[0]) := by
  simp [swap, positive, within, pure, Except.pure]

/-- A duplicate within the stack pushes a copy of the item. -/
theorem dup_of_le {st : Stack} {n : Nat} (positive : 0 < n) (within : n ≤ st.length) :
    st.dup n = .ok (st[n - 1] :: st) := by
  simp [dup, positive, Back_of_lt (show n - 1 < st.length by omega), push, bind, Except.bind,
    pure, Except.pure]

/-- Popping items the stack holds gives them topmost first, and the rest. -/
theorem popN_of_le : ∀ (n : Nat) (st : Stack), n ≤ st.length →
    st.popN n = .ok (st.take n, st.drop n)
  | 0, st, _ => rfl
  | n + 1, [], within => by simp at within
  | n + 1, d :: st, within => by
    -- One pop, and the rest of the items from the rest of the stack.
    have rest := popN_of_le n st (by simp at within; omega)
    simp [popN, rest, bind, Except.bind, pure, Except.pure]

end Stack

/-! ## The memory -/

/-- Go's `copy` into a window of the store keeps the store's length. -/
@[simp] theorem length_writeWindow {store src : Bytes} {offset n : Nat}
    (within : offset + n ≤ store.length) : (writeWindow store offset n src).length = store.length := by
  simp [writeWindow]
  omega

namespace Memory

variable {m : Memory}

/-- The `int64` end of a range inside a store below `2^63` bytes is the range's end. -/
theorem intOfUint64_end {off size : Nat} (small : off + size < 2 ^ 63) :
    intOfUint64 (((off : Int) + (size : Int)) % 2 ^ 64).toNat = ((off + size : Nat) : Int) := by
  have wraps : (((off : Int) + (size : Int)) % 2 ^ 64).toNat = off + size := by omega
  rw [intOfUint64, wraps, if_pos small]

/-- A read of a range inside the store is the window of the store it names. -/
theorem Get_of_within {off size : Nat} (nonzero : size ≠ 0) (within : off + size ≤ m.Len)
    (small : m.Len < 2 ^ 63) :
    m.Get off size = .ok ((m.store.drop off).take size) := by
  have below : (off : Int) < m.store.length := by simp only [Len] at within; omega
  have window : slice? m.store off (off + size) = some ((m.store.drop off).take size) := by
    rw [slice?_of_le (by omega) (by simpa [Len] using within)]
    simp
  unfold Get
  rw [if_neg (by exact_mod_cast nonzero), if_pos below, if_neg (by omega),
    intOfUint64_end (by omega)]
  have ends : ((off : Int) + size).toNat = off + size := by omega
  have nonneg : (0 : Int) ≤ off + size := by omega
  simp [sliceInt?, ends, nonneg, window, pure, Except.pure]

/-- A read of a range the store covers does not panic. -/
theorem Get_noPanic {off size : Nat} (covered : calcMemSize off size ≤ m.Len)
    (small : m.Len < 2 ^ 63) : NoPanic (m.Get (toInt64 off) (toInt64 size)) := by
  by_cases empty : size = 0
  · -- An empty read returns nothing whatever its offset.
    subst empty
    simp [Get]
  · have within : off + size ≤ m.Len := by simpa [calcMemSize, empty] using covered
    rw [toInt64_of_lt (by omega), toInt64_of_lt (by omega), Get_of_within empty within small]
    exact NoPanic.ok _

/-- `GetPtr` reads the same window as `Get`. -/
theorem GetPtr_of_within {off size : Nat} (nonzero : size ≠ 0) (within : off + size ≤ m.Len)
    (small : m.Len < 2 ^ 63) :
    m.GetPtr off size = .ok ((m.store.drop off).take size) := by
  have below : (off : Int) < m.store.length := by simp only [Len] at within; omega
  have window : slice? m.store off (off + size) = some ((m.store.drop off).take size) := by
    rw [slice?_of_le (by omega) (by simpa [Len] using within)]
    simp
  unfold GetPtr
  rw [if_neg (by exact_mod_cast nonzero), if_pos below, intOfUint64_end (by omega)]
  have ends : ((off : Int) + size).toNat = off + size := by omega
  have nonneg : (0 : Int) ≤ off + size := by omega
  simp [sliceInt?, ends, nonneg, window, pure, Except.pure]

theorem GetPtr_noPanic {off size : Nat} (covered : calcMemSize off size ≤ m.Len)
    (small : m.Len < 2 ^ 63) : NoPanic (m.GetPtr (toInt64 off) (toInt64 size)) := by
  by_cases empty : size = 0
  · subst empty
    simp [GetPtr]
  · have within : off + size ≤ m.Len := by simpa [calcMemSize, empty] using covered
    rw [toInt64_of_lt (by omega), toInt64_of_lt (by omega), GetPtr_of_within empty within small]
    exact NoPanic.ok _

/-- A `uint64` range below `2^63` ends where its natural numbers do. -/
theorem toNat_add_ofNat {off size : Nat} (small : off + size < 2 ^ 63) :
    (UInt64.ofNat off + UInt64.ofNat size).toNat = off + size := by
  rw [← UInt64.ofNat_add, toNat_ofNat_small (by omega)]

/-- A write of a range inside the store copies the value into that window. -/
theorem Set_of_within {off size : Nat} (value : Bytes) (nonzero : size ≠ 0)
    (within : off + size ≤ m.Len) (small : m.Len < 2 ^ 63) :
    m.Set (UInt64.ofNat off) (UInt64.ofNat size) value =
      .ok { m with store := writeWindow m.store off size value } := by
  have ends := toNat_add_ofNat (by omega : off + size < 2 ^ 63)
  have offset : (UInt64.ofNat off).toNat = off := toNat_ofNat_small (by omega)
  have positive : UInt64.ofNat size > 0 := by
    rw [gt_iff_lt, UInt64.lt_iff_toNat_lt, toNat_ofNat_small (by omega)]
    simp
    omega
  have fits : ¬ UInt64.ofNat off + UInt64.ofNat size > UInt64.ofNat m.store.length := by
    rw [gt_iff_lt, UInt64.lt_iff_toNat_lt, ends, toNat_ofNat_small (by simp only [Len] at *; omega)]
    simp only [Len] at within
    omega
  have window : slice? m.store off (off + size) = some ((m.store.drop off).take size) := by
    rw [slice?_of_le (by omega) (by simpa [Len] using within)]
    simp
  -- The window the slice takes is exactly `size` bytes long.
  have long : ((m.store.drop off).take size).length = size := by
    simp only [Len] at within
    simp
    omega
  simp [Set, positive, fits, ends, offset, window, long, pure, Except.pure]

/-- A write of a range the store covers does not panic. -/
theorem Set_noPanic {off size : Nat} (value : Bytes) (covered : calcMemSize off size ≤ m.Len)
    (small : m.Len < 2 ^ 63) : NoPanic (m.Set (UInt64.ofNat off) (UInt64.ofNat size) value) := by
  by_cases empty : size = 0
  · subst empty
    simp [Set]
  · have within : off + size ≤ m.Len := by simpa [calcMemSize, empty] using covered
    rw [Set_of_within value empty within small]
    exact NoPanic.ok _

/-- A write keeps the memory's size. -/
theorem Len_of_Set {offset size : UInt64} {value : Bytes} {m' : Memory}
    (wrote : m.Set offset size value = .ok m') : m'.Len = m.Len := by
  unfold Set at wrote
  split at wrote
  · split at wrote
    · simp at wrote
    · split at wrote
      · simp at wrote
      · -- The window the slice took lies inside the store.
        rename_i window sliced
        have inside := slice?_length sliced
        simp only [slice?] at sliced
        split at sliced
        · simp only [pure, Except.pure, Except.ok.injEq] at wrote
          subst wrote
          simp only [Len]
          exact length_writeWindow (by omega)
        · simp at sliced
  · simp only [pure, Except.pure, Except.ok.injEq] at wrote
    rw [wrote]

/-- `Set32` writes the value's low 32 bytes into a range inside the store. -/
theorem Set32_of_within {off : Nat} (val : Nat) (within : off + 32 ≤ m.Len)
    (small : m.Len < 2 ^ 63) :
    m.Set32 (UInt64.ofNat off) val =
      .ok { m with store := writeWindow m.store off 32 (lowBytes 32 val) } := by
  have ends := toNat_add_ofNat (by omega : off + 32 < 2 ^ 63)
  have offset : (UInt64.ofNat off).toNat = off := toNat_ofNat_small (by omega)
  have fits : ¬ UInt64.ofNat off + 32 > UInt64.ofNat m.store.length := by
    rw [gt_iff_lt, UInt64.lt_iff_toNat_lt, show (32 : UInt64) = UInt64.ofNat 32 from rfl, ends,
      toNat_ofNat_small (by simp only [Len] at *; omega)]
    simp only [Len] at within
    omega
  have ends32 : (UInt64.ofNat off + 32).toNat = off + 32 := ends
  have window : slice? m.store off (off + 32) = some ((m.store.drop off).take 32) := by
    rw [slice?_of_le (by omega) (by simpa [Len] using within)]
    simp
  simp [Set32, fits, ends32, offset, window, pure, Except.pure]

theorem Set32_noPanic {off : Nat} (val : Nat) (within : off + 32 ≤ m.Len)
    (small : m.Len < 2 ^ 63) : NoPanic (m.Set32 (UInt64.ofNat off) val) := by
  rw [Set32_of_within val within small]
  exact NoPanic.ok _

theorem Len_of_Set32 {offset : UInt64} {val : Nat} {m' : Memory}
    (wrote : m.Set32 offset val = .ok m') : m'.Len = m.Len := by
  unfold Set32 at wrote
  split at wrote
  · simp at wrote
  · split at wrote
    · simp at wrote
    · rename_i window sliced
      have inside := slice?_length sliced
      simp only [slice?] at sliced
      split at sliced
      · -- A slice in order means the `uint64` end did not wrap: it is 32 bytes past the offset.
        have wraps : (offset + 32).toNat = (offset.toNat + 32) % 2 ^ 64 := UInt64.toNat_add _ _
        have bounded := UInt64.toNat_lt offset
        simp only [pure, Except.pure, Except.ok.injEq] at wrote
        subst wrote
        simp only [Len]
        exact length_writeWindow (by omega)
      · simp at sliced

/-- `memory.store[off] = b` inside the store. -/
theorem setByte_of_within {off : Nat} (b : UInt8) (within : off + 1 ≤ m.Len)
    (small : m.Len < 2 ^ 63) :
    m.setByte (toInt64 off) b = .ok { m with store := m.store.set off b } := by
  rw [toInt64_of_lt (by omega)]
  have inside : (off : Int) < m.store.length := by simp only [Len] at within; omega
  simp [setByte, inside, pure, Except.pure]

theorem setByte_noPanic {off : Nat} (b : UInt8) (within : off + 1 ≤ m.Len)
    (small : m.Len < 2 ^ 63) : NoPanic (m.setByte (toInt64 off) b) := by
  rw [setByte_of_within b within small]
  exact NoPanic.ok _

theorem Len_of_setByte {off : Int} {b : UInt8} {m' : Memory}
    (wrote : m.setByte off b = .ok m') : m'.Len = m.Len := by
  unfold setByte at wrote
  split at wrote
  · simp only [pure, Except.pure, Except.ok.injEq] at wrote
    subst wrote
    simp [Len]
  · simp at wrote

end Memory

end Vm

end Harmony
