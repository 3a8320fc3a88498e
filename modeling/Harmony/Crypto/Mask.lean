import Harmony.Lib.ByteBitmap

/-!
The cosigning participation mask of `crypto/bls`.

Public keys are elements of an additive commutative group `K`: BLS keys add and subtract as
curve points, and `&bls.PublicKey{}` is the group's zero.
-/

namespace Harmony

open Go

open ByteBitmap

/-- A participation bitmap over a fixed key list, with the running sum of the enabled keys. -/
structure Mask (K : Type) where
  /-- The little-endian bitmap, one bit per key. -/
  Bitmap : Bytes
  /-- The keys the mask was built over. -/
  publics : List K
  /-- The sum of the keys whose bits are set. -/
  AggregatePublic : K
  /-- `NewMask` allocates `Len()` bytes, and no method changes the length. -/
  bitmap_size : Bitmap.length = (publics.length + 7) >>> 3

namespace Mask

variable {K : Type} [AddCommGroup K] [DecidableEq K]

/-- The bitmap length in bytes for the mask's keys, Go's `Len`. -/
def Len (m : Mask K) : Nat := (m.publics.length + 7) >>> 3

/--
Enable or disable key `i`, Go's `SetBit`.

The aggregate changes only when the bit actually flips.
-/
def SetBit (m : Mask K) (i : Nat) (enable : Bool) : Except String (Mask K) :=
  if within : i < m.publics.length then
    let key := m.publics[i]
    if !testBit m.Bitmap i && enable then
      .ok ⟨flipBit m.Bitmap i, m.publics, m.AggregatePublic + key,
        by simp [m.bitmap_size]⟩
    else if testBit m.Bitmap i && !enable then
      .ok ⟨flipBit m.Bitmap i, m.publics, m.AggregatePublic - key,
        by simp [m.bitmap_size]⟩
    else .ok m
  else .error "index out of range"

/-- Set the bit of the first key equal to `pubKey`, Go's `SetKey`. -/
def SetKey (m : Mask K) (pubKey : K) (enable : Bool) : Except String (Mask K) :=
  match m.publics.idxOf? pubKey with
  | some i => m.SetBit i enable
  | none => .error "key not found"

/-- One step of `SetMask`: bring bit `i` of the mask in line with bit `i` of `mask`. -/
def alignBit (mask : Bytes) (m : Mask K) (i : Nat) : Mask K :=
  if within : i < m.publics.length then
    let key := m.publics[i]
    if !testBit m.Bitmap i && testBit mask i then
      ⟨flipBit m.Bitmap i, m.publics, m.AggregatePublic + key, by simp [m.bitmap_size]⟩
    else if testBit m.Bitmap i && !testBit mask i then
      ⟨flipBit m.Bitmap i, m.publics, m.AggregatePublic - key, by simp [m.bitmap_size]⟩
    else m
  else m

/-- Replace the participation bits by those of `mask`, Go's `SetMask`. -/
def SetMask (m : Mask K) (mask : Bytes) : Except String (Mask K) :=
  if m.Len ≠ mask.length then .error "mismatching bitmap lengths"
  else .ok ((List.range m.publics.length).foldl (alignBit mask) m)

/-- Whether key `i` is enabled, Go's `IndexEnabled`. -/
def IndexEnabled (m : Mask K) (i : Nat) : Except String Bool :=
  if i < m.publics.length then .ok (testBit m.Bitmap i) else .error "index out of range"

/-- Whether the first key equal to `pubKey` is enabled, Go's `KeyEnabled`. -/
def KeyEnabled (m : Mask K) (pubKey : K) : Except String Bool :=
  match m.publics.idxOf? pubKey with
  | some i => m.IndexEnabled i
  | none => .error "key not found"

/-- The number of enabled keys, Go's `CountEnabled`. -/
def CountEnabled (m : Mask K) : Nat := countSet m.Bitmap m.publics.length

/-- The keys whose bit equals `flag`, in key order, Go's `GetPubKeyFromMask`. -/
def GetPubKeyFromMask (m : Mask K) (flag : Bool) : List K :=
  ((List.range m.publics.length).filter (fun i => testBit m.Bitmap i == flag)).filterMap
    (fun i => m.publics[i]?)

end Mask

/--
A fresh mask with every key disabled, Go's `NewMask`.

Given `myKey`, the first equal key is enabled, and a missing key is an error.
-/
def NewMask {K : Type} [AddCommGroup K] [DecidableEq K] (publics : List K) (myKey : Option K) :
    Except String (Mask K) :=
  let m : Mask K := ⟨List.replicate ((publics.length + 7) >>> 3) 0, publics, 0, by simp⟩
  match myKey with
  | none => .ok m
  | some key =>
    match publics.idxOf? key with
    | some i => m.SetBit i true
    | none => .error "key not found"

/-- The sum of a list of signatures, Go's `AggregateSig`. -/
def AggregateSig {S : Type} [AddCommMonoid S] (sigs : List S) : S :=
  sigs.foldl (· + ·) 0

-- Go's method shares its type's name; declared last, it hides the type from nothing after it.
set_option linter.dupNamespace false in
/-- A copy of the participation bitmap, Go's `Mask()`. -/
def Mask.Mask {K : Type} (m : Mask K) : Bytes := m.Bitmap

end Harmony
