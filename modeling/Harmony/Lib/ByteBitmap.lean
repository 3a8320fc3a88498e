import Harmony.Lib.GoBytes

/-!
Little-endian participation bitmaps over byte slices: bit `i` is bit `i % 8` of byte `i / 8`.

A bitmap is read as the set of its positions that are set (`setBits`); flipping a bit held by the
slice adds or removes that one position, and two slices of one length with the same bits are equal.
-/

namespace Go

namespace ByteBitmap

/-- The byte that holds bit `i`, Go's `i >> 3`. -/
def byteIndex (i : Nat) : Nat := i >>> 3

/-- The single-bit mask of bit `i` inside its byte, Go's `byte(1) << uint(i&7)`. -/
def bitMask (i : Nat) : UInt8 := 1 <<< (i &&& 7).toUInt8

/-- Whether bit `i` is set, reading a missing byte as zero. -/
def testBit (bitmap : Bytes) (i : Nat) : Bool :=
  (bitmap.getD (byteIndex i) 0 &&& bitMask i) != 0

/-- Flip bit `i`, Go's `bitmap[i>>3] ^= msk`. -/
def flipBit (bitmap : Bytes) (i : Nat) : Bytes :=
  bitmap.modify (byteIndex i) (· ^^^ bitMask i)

/-- The number of set bits among the first `n` positions. -/
def countSet (bitmap : Bytes) (n : Nat) : Nat :=
  ((List.range n).filter (testBit bitmap)).length

/-- Flipping a bit never changes the bitmap's length. -/
@[simp] theorem length_flipBit (bitmap : Bytes) (i : Nat) :
    (flipBit bitmap i).length = bitmap.length := by
  simp [flipBit]

/-- Counting over no positions finds nothing. -/
@[simp] theorem countSet_zero (bitmap : Bytes) : countSet bitmap 0 = 0 := by
  simp [countSet]

/-- The mask of bit `i` is the byte `2 ^ (i % 8)`. -/
theorem toNat_bitMask (i : Nat) : (bitMask i).toNat = 2 ^ (i % 8) := by
  have offset : (i &&& 7) = i % 8 := Nat.and_two_pow_sub_one_eq_mod i 3
  have small : i % 8 < 8 := Nat.mod_lt i (by decide)
  have within : (2 : Nat) ^ (i % 8) < 256 :=
    Nat.lt_of_lt_of_le (Nat.pow_lt_pow_right (by decide) small) (by decide)
  simp [bitMask, UInt8.toNat_shiftLeft, offset, Nat.one_shiftLeft, Nat.toUInt8,
    Nat.mod_eq_of_lt small, Nat.mod_eq_of_lt (Nat.lt_trans small (by decide : 8 < 256)),
    Nat.mod_eq_of_lt within]

/-- A byte meets the mask of bit `i` exactly when its bit `i % 8` is set. -/
theorem and_bitMask_ne_zero (byte : UInt8) (i : Nat) :
    (byte &&& bitMask i != 0) = byte.toNat.testBit (i % 8) := by
  have masked : (byte &&& bitMask i).toNat = (byte.toNat.testBit (i % 8)).toNat * 2 ^ (i % 8) := by
    rw [UInt8.toNat_and, toNat_bitMask, Nat.and_two_pow]
  cases bit : byte.toNat.testBit (i % 8)
  · have zero : byte &&& bitMask i = 0 := UInt8.toNat_inj.mp (by simp [masked, bit])
    simp [zero]
  · have nonzero : byte &&& bitMask i ≠ 0 := fun zero => by
      simp only [zero, bit, UInt8.toNat_zero, Bool.toNat_true, Nat.one_mul] at masked
      exact (Nat.two_pow_pos _).ne' masked.symm
    simp [nonzero]

/-- Bit `i` is bit `i % 8` of byte `i / 8`, counting from the low end. -/
theorem testBit_eq (bitmap : Bytes) (i : Nat) :
    testBit bitmap i = (bitmap.getD (i / 8) 0).toNat.testBit (i % 8) := by
  rw [testBit, and_bitMask_ne_zero, byteIndex, Nat.shiftRight_eq_div_pow]

/-- No bit of a zeroed bitmap is set. -/
@[simp] theorem testBit_replicate_zero (size i : Nat) : testBit (List.replicate size 0) i = false := by
  simp [testBit_eq]

/-- The byte of bit `i`, Go's `i >> 3`, is `i / 8`. -/
theorem byteIndex_eq (i : Nat) : byteIndex i = i / 8 := by
  simp [byteIndex, Nat.shiftRight_eq_div_pow]

/-- Flipping bit `j` of a bitmap that holds it changes that bit and no other. -/
theorem testBit_flipBit {bitmap : Bytes} {j : Nat} (within : j / 8 < bitmap.length) (i : Nat) :
    testBit (flipBit bitmap j) i = (testBit bitmap i ^^ (i == j)) := by
  rw [testBit_eq, testBit_eq, flipBit, byteIndex_eq, List.getD_eq_getElem?_getD,
    List.getD_eq_getElem?_getD, List.getElem?_modify]
  by_cases sameByte : j / 8 = i / 8
  · -- In the flipped byte, the mask's one bit is bit `j % 8`, the position of `i` exactly when `i = j`.
    have held : i / 8 < bitmap.length := sameByte ▸ within
    have same : (i == j) = decide (j % 8 = i % 8) := by
      rw [Bool.eq_iff_iff, beq_iff_eq, decide_eq_true_iff]
      omega
    simp [sameByte, List.getElem?_eq_getElem held, UInt8.toNat_xor, Nat.testBit_xor, toNat_bitMask,
      Nat.testBit_two_pow, same]
  · -- Another byte is left alone, and `i` is not `j`.
    have differ : (i == j) = false := by
      simp only [beq_eq_false_iff_ne]
      rintro rfl
      exact sameByte rfl
    cases bitmap[i / 8]? <;> simp [sameByte, differ]

/-- Flipping a bit held by the bitmap inverts it. -/
@[simp] theorem testBit_flipBit_self {bitmap : Bytes} {j : Nat} (within : j / 8 < bitmap.length) :
    testBit (flipBit bitmap j) j = !testBit bitmap j := by
  simp [testBit_flipBit within]

/-- Flipping one bit leaves every other bit. -/
theorem testBit_flipBit_of_ne {bitmap : Bytes} {i j : Nat} (differ : i ≠ j) :
    testBit (flipBit bitmap j) i = testBit bitmap i := by
  by_cases within : j / 8 < bitmap.length
  · simp [testBit_flipBit within, beq_eq_false_iff_ne.mpr differ]
  · -- A position past the end names no byte, and the flip changes nothing.
    have untouched : flipBit bitmap j = bitmap := by
      simp [flipBit, List.modify_eq_self, byteIndex_eq, Nat.le_of_not_lt within]
    rw [untouched]

/-- Two bitmaps of one length are equal when every bit is. -/
theorem ext_testBit {a b : Bytes} (sameLength : a.length = b.length)
    (sameBits : ∀ i, testBit a i = testBit b i) : a = b := by
  apply List.ext_getElem sameLength
  intro k inA inB
  apply UInt8.toNat_inj.mp
  apply Nat.eq_of_testBit_eq
  intro offset
  by_cases small : offset < 8
  · -- Bit `8 k + offset` of each bitmap is this bit of byte `k`.
    have bit := sameBits (8 * k + offset)
    rw [testBit_eq, testBit_eq] at bit
    have byteOf : (8 * k + offset) / 8 = k := by omega
    have offsetOf : (8 * k + offset) % 8 = offset := by omega
    simpa [byteOf, offsetOf, List.getElem?_eq_getElem inA, List.getElem?_eq_getElem inB] using bit
  · -- Above bit seven every byte is clear.
    have high : ∀ byte : UInt8, byte.toNat.testBit offset = false := fun byte =>
      Nat.testBit_lt_two_pow (Nat.lt_of_lt_of_le byte.toNat_lt
        (Nat.pow_le_pow_right (by decide) (Nat.le_of_not_lt small)))
    rw [high, high]

/-- The set positions below `n`. -/
def setBits (bitmap : Bytes) (n : Nat) : Finset Nat :=
  {i ∈ Finset.range n | testBit bitmap i}

@[simp] theorem mem_setBits {bitmap : Bytes} {n i : Nat} :
    i ∈ setBits bitmap n ↔ i < n ∧ testBit bitmap i = true := by
  simp [setBits]

/-- Setting a clear bit below `n` adds its position. -/
theorem setBits_flipBit_of_clear {bitmap : Bytes} {j n : Nat} (within : j / 8 < bitmap.length)
    (below : j < n) (clear : testBit bitmap j = false) :
    setBits (flipBit bitmap j) n = insert j (setBits bitmap n) := by
  ext i
  by_cases equal : i = j
  · subst equal
    simp [testBit_flipBit_self within, clear, below]
  · simp [testBit_flipBit_of_ne equal, equal]

/-- Clearing a set bit removes its position. -/
theorem setBits_flipBit_of_set {bitmap : Bytes} {j n : Nat} (within : j / 8 < bitmap.length)
    (set : testBit bitmap j = true) :
    setBits (flipBit bitmap j) n = (setBits bitmap n).erase j := by
  ext i
  by_cases equal : i = j
  · subst equal
    simp [testBit_flipBit_self within, set]
  · simp [testBit_flipBit_of_ne equal, equal]

/-- `countSet` counts the set positions. -/
theorem countSet_eq_card (bitmap : Bytes) (n : Nat) : countSet bitmap n = (setBits bitmap n).card := by
  -- The filtered range has no repeats, so its length is the size of its set of positions.
  have positions : setBits bitmap n = ((List.range n).filter (testBit bitmap)).toFinset := by
    ext i
    simp
  rw [countSet, positions, List.toFinset_card_of_nodup ((List.nodup_range).filter _)]

end ByteBitmap

/--
Picking by position the elements of a list whose index passes a test is filtering the list paired
with its indices.
-/
theorem filterMap_getElem?_filter_range {α : Type} (l : List α) (p : Nat → Bool) :
    ((List.range l.length).filter p).filterMap (fun i => l[i]?) =
      (l.zipIdx.filter (fun x => p x.2)).map Prod.fst := by
  induction l using List.reverseRecOn with
  | nil => simp
  | append_singleton l a ih =>
    -- The last element sits at index `l.length`, after every index of `l`.
    have earlier : ((List.range l.length).filter p).filterMap (fun i => (l ++ [a])[i]?) =
        ((List.range l.length).filter p).filterMap (fun i => l[i]?) := by
      apply List.filterMap_congr
      intro i listed
      have below : i < l.length := List.mem_range.mp (List.mem_filter.mp listed).1
      simp [List.getElem?_append_left below]
    simp only [List.length_append, List.length_singleton, List.range_succ, List.filter_append,
      List.filterMap_append, earlier, ih, List.zipIdx_append, List.map_append]
    by_cases passes : p l.length <;> simp [passes]

/-- The value left behind by a Go method whose error result the caller drops. -/
def orKeep {ε α : Type} (result : Except ε α) (old : α) : α :=
  match result with
  | .ok value => value
  | .error _ => old

/-- A dropped error leaves the value the method started from. -/
@[simp] theorem orKeep_error {ε α : Type} (e : ε) (old : α) : orKeep (.error e) old = old := rfl

/-- A successful method's result is kept. -/
@[simp] theorem orKeep_ok {ε α : Type} (value old : α) :
    orKeep (.ok value : Except ε α) old = value := rfl

/-- What is left is the old value, or the method succeeded with it. -/
theorem orKeep_cases {ε α : Type} (result : Except ε α) (old : α) :
    orKeep result old = old ∨ result = .ok (orKeep result old) := by
  cases result with
  | error => exact .inl rfl
  | ok value => exact .inr rfl

end Go
