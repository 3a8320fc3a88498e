import Mathlib

/-!
Go byte slices, fixed-size byte arrays, and the slicing and copying rules that may panic; with the
hex form `fmt` gives a byte array and Go's `int` conversion of a `uint64`.
-/

namespace Go

/-- A Go `[]byte`, read as the list of its bytes. -/
abbrev Bytes := List UInt8

/-- A Go `[n]byte` array: a byte list whose length is fixed by its type. -/
structure FixedBytes (n : Nat) where
  /-- The array contents, in index order. -/
  bytes : Bytes
  /-- An array value always has exactly its declared width. -/
  size : bytes.length = n
  deriving DecidableEq

namespace FixedBytes

/-- The zero value of a Go array. -/
def zero (n : Nat) : FixedBytes n :=
  ⟨List.replicate n 0, List.length_replicate⟩

/--
Go's `copy(dst[:], src)` into a fresh zero array.

The first `min n (len src)` bytes come from `src`, and the rest stay zero.
-/
def ofBytes (n : Nat) (src : Bytes) : FixedBytes n :=
  ⟨(src ++ List.replicate n 0).take n, by simp⟩

/-- Go's `copy(dst[:], src)` into an existing array: a short source leaves the tail in place. -/
def overwrite {n : Nat} (dst : FixedBytes n) (src : Bytes) : FixedBytes n :=
  ⟨(src ++ dst.bytes.drop src.length).take n, by
    -- A source at least as long as the array fills it; a shorter one is padded by the old tail.
    have width := dst.size
    simp only [List.length_take, List.length_append, List.length_drop]
    omega⟩

/-- A source of exactly the array's width is copied whole. -/
@[simp] theorem ofBytes_bytes {n : Nat} {src : Bytes} (exact : src.length = n) :
    (ofBytes n src).bytes = src := by
  -- Taking the width keeps the source and drops all padding.
  simp [ofBytes, ← exact]

/-- Copying an array's own contents back into a zero array gives the array. -/
@[simp] theorem ofBytes_self {n : Nat} (array : FixedBytes n) : ofBytes n array.bytes = array := by
  -- The array already has the width, so no byte is changed.
  cases array with
  | mk bytes size => simp [ofBytes, ← size]

/-- Two arrays are equal when their contents are: the width is a fact, not data. -/
theorem bytes_injective {n : Nat} : Function.Injective (bytes (n := n)) := by
  intro a b same
  cases a
  cases b
  simp_all

/-- Overwriting with a source of the full width replaces every byte. -/
@[simp] theorem overwrite_bytes {n : Nat} (dst : FixedBytes n) {src : Bytes}
    (exact : src.length = n) : (dst.overwrite src).bytes = src := by
  -- The old contents are dropped past the source's length, which is the whole array.
  have width := dst.size
  simp [overwrite, exact, ← width]

end FixedBytes

/-- Go's `s[lo:hi]`: `none` is the slice-bounds panic. -/
def slice? {α : Type} (s : List α) (lo hi : Nat) : Option (List α) :=
  if lo ≤ hi ∧ hi ≤ s.length then some ((s.drop lo).take (hi - lo)) else none

/-- Go's `s[lo:]`: `none` is the slice-bounds panic. -/
def sliceFrom? {α : Type} (s : List α) (lo : Nat) : Option (List α) :=
  if lo ≤ s.length then some (s.drop lo) else none

/-- A slice inside the bounds is the window between them. -/
theorem slice?_of_le {α : Type} {s : List α} {lo hi : Nat} (ordered : lo ≤ hi)
    (within : hi ≤ s.length) : slice? s lo hi = some ((s.drop lo).take (hi - lo)) := by
  simp [slice?, ordered, within]

/-- A slice panics exactly when its bounds are out of order or past the end. -/
@[simp] theorem slice?_eq_none {α : Type} {s : List α} {lo hi : Nat} :
    slice? s lo hi = none ↔ ¬ (lo ≤ hi ∧ hi ≤ s.length) := by
  unfold slice?
  split <;> simp_all

/-- A suffix slice inside the bounds drops the prefix. -/
theorem sliceFrom?_of_le {α : Type} {s : List α} {lo : Nat} (within : lo ≤ s.length) :
    sliceFrom? s lo = some (s.drop lo) := by
  simp [sliceFrom?, within]

/-- A window of a slice never reaches past its upper bound. -/
theorem slice?_length {α : Type} {s window : List α} {lo hi : Nat}
    (sliced : slice? s lo hi = some window) : window.length = hi - lo := by
  -- In bounds, the window is the dropped prefix cut to its requested width.
  unfold slice? at sliced
  split at sliced
  · rename_i bounds
    cases sliced
    simp only [List.length_take, List.length_drop]
    omega
  · cases sliced

/-- Go's `binary.LittleEndian.PutUint32` into a fresh four-byte slice. -/
def putUint32LE (v : UInt32) : Bytes :=
  [v.toUInt8, (v >>> 8).toUInt8, (v >>> 16).toUInt8, (v >>> 24).toUInt8]

/-- The encoding of a 32-bit value always takes four bytes. -/
@[simp] theorem length_putUint32LE (v : UInt32) : (putUint32LE v).length = 4 := rfl

/-- Go's `bytes.Compare`: lexicographic by byte, with a proper prefix first. -/
def bytesCompare : Bytes → Bytes → Ordering
  | [], [] => .eq
  | [], _ :: _ => .lt
  | _ :: _, [] => .gt
  | a :: as, b :: bs => if a < b then .lt else if b < a then .gt else bytesCompare as bs

/-- `bytes.Compare` reports equal only for equal slices. -/
@[simp] theorem bytesCompare_eq_iff {a b : Bytes} : bytesCompare a b = .eq ↔ a = b := by
  induction a generalizing b with
  | nil => cases b <;> simp [bytesCompare]
  | cons x xs ih =>
    cases b with
    | nil => simp [bytesCompare]
    | cons y ys =>
      -- Neither byte is below the other exactly when they are equal.
      by_cases below : x < y
      · simp [bytesCompare, below, UInt8.ne_of_lt below]
      · by_cases above : y < x
        · simp [bytesCompare, below, above, (UInt8.ne_of_lt above).symm]
        · have same : x = y := UInt8.le_antisymm (UInt8.not_lt.mp above) (UInt8.not_lt.mp below)
          simp [bytesCompare, same, ih]

/--
Go's comparison of two slices element by element, as `CompareNodeIDList` and `CompareShardState`
write it: the first element that differs decides, and otherwise the shorter slice is first.
-/
def compareSlices {α : Type} (cmp : α → α → Ordering) : List α → List α → Ordering
  | [], [] => .eq
  | [], _ :: _ => .lt
  | _ :: _, [] => .gt
  | a :: as, b :: bs =>
    match cmp a b with
    | .eq => compareSlices cmp as bs
    | c => c

/-- The lowercase hex digits of a byte slice, as `fmt`'s `%x` writes it. -/
def hexEncode (b : Bytes) : String :=
  String.join (b.map fun byte => String.ofList [Nat.digitChar (byte.toNat / 16),
    Nat.digitChar (byte.toNat % 16)])

/-- Go's `int(x)` of a `uint64` on a 64-bit platform: values from `2^63` on wrap negative. -/
def intOfUint64 (x : Nat) : Int := if x < 2 ^ 63 then x else (x : Int) - 2 ^ 64

end Go
