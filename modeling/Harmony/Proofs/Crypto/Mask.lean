import Harmony.Crypto.Mask

/-!
The participation mask of `crypto/bls/bls.go` over every run of its methods.

A mask the program holds comes from `NewMask` and then from calls of `SetBit`, `SetKey` and
`SetMask`, whose errors callers drop. Over any such run the mask keeps its representation
invariant (`MaskInvariant`): no bit past the keys is set, and the aggregate key is the group sum of
the keys whose bits are set. Every method is reduced to `SetBit`, which flips at most one bit and
moves the aggregate by that bit's key; `SetKey` is `SetBit` at the key's position, and `SetMask` is
`SetBit` at each position in turn.
-/

namespace Harmony

open Go ByteBitmap

variable {K : Type}

/-- A call on a mask. Go's callers drop the error, and a method that fails changes nothing. -/
inductive MaskOp (K : Type) where
  /-- `SetBit(i, enable)`. -/
  | SetBit (i : Nat) (enable : Bool)
  /-- `SetKey(pubKey, enable)`. -/
  | SetKey (pubKey : K) (enable : Bool)
  /-- `SetMask(mask)`. -/
  | SetMask (mask : Bytes)

/-- A mask's bitmap holds the bit of each of its keys. -/
theorem byte_within (m : Mask K) {i : Nat} (below : i < m.publics.length) :
    i / 8 < m.Bitmap.length := by
  rw [m.bitmap_size, Nat.shiftRight_eq_div_pow]
  omega

/-- Below the number of keys, `IndexEnabled` reads the key's bit. -/
theorem IndexEnabled_of_lt (m : Mask K) {i : Nat} (below : i < m.publics.length) :
    m.IndexEnabled i = .ok (testBit m.Bitmap i) := by
  simp [Mask.IndexEnabled, below]

/-- `GetPubKeyFromMask` picks, in key order, the keys whose bit is `flag`. -/
theorem GetPubKeyFromMask_eq (m : Mask K) (flag : Bool) :
    m.GetPubKeyFromMask flag =
      (m.publics.zipIdx.filter (fun key => testBit m.Bitmap key.2 == flag)).map Prod.fst :=
  filterMap_getElem?_filter_range m.publics (fun i => testBit m.Bitmap i == flag)

section Group

variable [AddCommGroup K]

/--
What `SetBit` can do: below the number of keys it leaves a bit that already has the wanted value,
and otherwise flips it and adds or subtracts its key.
-/
theorem SetBit_cases {m m' : Mask K} {i : Nat} {enable : Bool} (set : m.SetBit i enable = .ok m') :
    i < m.publics.length ∧ m'.publics = m.publics ∧
      (testBit m.Bitmap i = enable ∧ m' = m ∨
        testBit m.Bitmap i = false ∧ enable = true ∧ m'.Bitmap = flipBit m.Bitmap i ∧
          m'.AggregatePublic = m.AggregatePublic + m.publics.getD i 0 ∨
        testBit m.Bitmap i = true ∧ enable = false ∧ m'.Bitmap = flipBit m.Bitmap i ∧
          m'.AggregatePublic = m.AggregatePublic - m.publics.getD i 0) := by
  unfold Mask.SetBit at set
  split at set
  · rename_i below
    refine ⟨below, ?_⟩
    -- The two flips are tested one after the other, as Go's two `if`s are.
    cases bit : testBit m.Bitmap i <;> cases enable <;> simp [bit] at set <;> subst set <;>
      simp [List.getElem?_eq_getElem below]
  · cases set

/-- After `SetBit`, bit `i` has the wanted value and every other bit is unchanged. -/
theorem SetBit_testBit {m m' : Mask K} {i : Nat} {enable : Bool}
    (set : m.SetBit i enable = .ok m') (j : Nat) :
    testBit m'.Bitmap j = if j = i then enable else testBit m.Bitmap j := by
  obtain ⟨below, -, ⟨same, rfl⟩ | ⟨clear, rfl, flipped, -⟩ | ⟨held, rfl, flipped, -⟩⟩ :=
    SetBit_cases set
  · split
    · subst j
      exact same
    · rfl
  all_goals
    rw [flipped]
    by_cases equal : j = i
    · subst j
      simp [testBit_flipBit_self (byte_within m below), *]
    · simp [testBit_flipBit_of_ne equal, equal]

/-- One step of `SetMask` is `SetBit` to the bit of the given bitmap. -/
theorem alignBit_eq (mask : Bytes) (m : Mask K) {i : Nat} (below : i < m.publics.length) :
    m.SetBit i (testBit mask i) = .ok (Mask.alignBit mask m i) := by
  simp only [Mask.SetBit, Mask.alignBit, below, dite_true]
  split_ifs <;> rfl

/--
The representation invariant of a mask: no bit past the keys is set, and the aggregate is the
group sum of the keys whose bits are set.
-/
structure MaskInvariant (m : Mask K) : Prop where
  /-- The padding bits of the last byte, and any past it, are clear. -/
  padding_clear : ∀ i, m.publics.length ≤ i → testBit m.Bitmap i = false
  /-- `AggregatePublic` is the sum of `publics[i]` over the set positions `i`. -/
  aggregate : m.AggregatePublic = ∑ i ∈ setBits m.Bitmap m.publics.length, m.publics.getD i 0

/-- `SetBit` keeps the invariant: the flipped bit is below the keys, and its key moves the sum. -/
theorem MaskInvariant.SetBit {m m' : Mask K} {i : Nat} {enable : Bool} (inv : MaskInvariant m)
    (set : m.SetBit i enable = .ok m') : MaskInvariant m' := by
  obtain ⟨below, samePublics, ⟨-, rfl⟩ | ⟨clear, -, flipped, added⟩ | ⟨held, -, flipped, removed⟩⟩ :=
    SetBit_cases set
  · exact inv
  all_goals
    have within := byte_within m below
    refine ⟨fun j past => ?_, ?_⟩
    · -- A bit past the keys is not the flipped one.
      have past' : m.publics.length ≤ j := samePublics ▸ past
      rw [flipped, testBit_flipBit_of_ne (by omega)]
      exact inv.padding_clear j past'
  · -- Setting a clear bit adds its position and its key.
    have fresh : i ∉ setBits m.Bitmap m.publics.length := by simp [clear]
    rw [added, flipped, samePublics, setBits_flipBit_of_clear within below clear,
      Finset.sum_insert fresh, inv.aggregate, add_comm]
  · -- Clearing a set bit removes its position and its key.
    have present : i ∈ setBits m.Bitmap m.publics.length := by simp [held, below]
    rw [removed, flipped, samePublics, setBits_flipBit_of_set within held,
      Finset.sum_erase_eq_sub present, inv.aggregate]

/--
The first `k` steps of `SetMask`'s loop keep the keys, make the bits below `k` those of the given
bitmap and leave the others, and keep the invariant.
-/
theorem alignLoop_spec (mask : Bytes) (m : Mask K) {k : Nat} (within : k ≤ m.publics.length) :
    ((List.range k).foldl (Mask.alignBit mask) m).publics = m.publics ∧
      (∀ j, testBit ((List.range k).foldl (Mask.alignBit mask) m).Bitmap j =
        if j < k then testBit mask j else testBit m.Bitmap j) ∧
      (MaskInvariant m → MaskInvariant ((List.range k).foldl (Mask.alignBit mask) m)) := by
  induction k with
  | zero => simp
  | succ k ih =>
    obtain ⟨samePublics, bits, kept⟩ := ih (by omega)
    -- Step `k` is `SetBit` at a position still below the keys.
    have below : k < ((List.range k).foldl (Mask.alignBit mask) m).publics.length := by
      rw [samePublics]
      omega
    have set := alignBit_eq mask _ below
    rw [List.range_succ, List.foldl_append, List.foldl_cons, List.foldl_nil]
    refine ⟨(SetBit_cases set).2.1.trans samePublics, fun j => ?_,
      fun inv => (kept inv).SetBit set⟩
    rw [SetBit_testBit set, bits]
    by_cases equal : j = k
    · simp [equal]
    · by_cases earlier : j < k
      · simp [equal, earlier, show j < k + 1 by omega]
      · simp [equal, earlier, show ¬ j < k + 1 by omega]

/-- What `SetMask` can do: it succeeds only on a bitmap of the mask's length, by its loop. -/
theorem SetMask_cases {m m' : Mask K} {mask : Bytes} (set : m.SetMask mask = .ok m') :
    mask.length = m.Len ∧ m' = (List.range m.publics.length).foldl (Mask.alignBit mask) m := by
  unfold Mask.SetMask at set
  split at set
  · cases set
  · rename_i fits
    cases set
    exact ⟨(not_not.mp fits).symm, rfl⟩

/-- `SetMask` on a bitmap of the mask's length succeeds. -/
theorem SetMask_fits (m : Mask K) {mask : Bytes} (fits : mask.length = m.Len) :
    m.SetMask mask = .ok ((List.range m.publics.length).foldl (Mask.alignBit mask) m) := by
  simp [Mask.SetMask, fits]

/-- `SetMask` on a bitmap of another length fails, with Go's message. -/
theorem SetMask_mismatch (m : Mask K) {mask : Bytes} (mismatch : mask.length ≠ m.Len) :
    m.SetMask mask = .error "mismatching bitmap lengths" := by
  simp [Mask.SetMask, Ne.symm mismatch]

/-- `SetMask` keeps the keys. -/
theorem SetMask_publics {m m' : Mask K} {mask : Bytes} (set : m.SetMask mask = .ok m') :
    m'.publics = m.publics := by
  obtain ⟨-, rfl⟩ := SetMask_cases set
  exact (alignLoop_spec mask m (le_refl _)).1

/-- `SetMask` keeps the invariant. -/
theorem MaskInvariant.SetMask {m m' : Mask K} {mask : Bytes} (inv : MaskInvariant m)
    (set : m.SetMask mask = .ok m') : MaskInvariant m' := by
  obtain ⟨-, rfl⟩ := SetMask_cases set
  exact (alignLoop_spec mask m (le_refl _)).2.2 inv

end Group

section Keys

variable [AddCommGroup K] [DecidableEq K]

/-- What `SetKey` can do: it is `SetBit` at the first position of an equal key. -/
theorem SetKey_cases {m m' : Mask K} {pubKey : K} {enable : Bool}
    (set : m.SetKey pubKey enable = .ok m') :
    ∃ i, m.publics.idxOf? pubKey = some i ∧ m.SetBit i enable = .ok m' := by
  unfold Mask.SetKey at set
  split at set
  · rename_i i found
    exact ⟨i, found, set⟩
  · cases set

namespace MaskOp

/-- The mask after one call. -/
def apply (m : Mask K) : MaskOp K → Mask K
  | SetBit i enable => orKeep (m.SetBit i enable) m
  | SetKey pubKey enable => orKeep (m.SetKey pubKey enable) m
  | SetMask mask => orKeep (m.SetMask mask) m

/-- The mask after a sequence of calls. -/
def run (m : Mask K) (ops : List (MaskOp K)) : Mask K := ops.foldl apply m

end MaskOp

/-- `NewMask` builds its mask over the keys it is given. -/
theorem NewMask_publics {publics : List K} {myKey : Option K} {m : Mask K}
    (created : NewMask publics myKey = .ok m) : m.publics = publics := by
  unfold NewMask at created
  split at created
  · cases created
    rfl
  · split at created
    · exact (SetBit_cases created).2.1
    · cases created

namespace MaskInvariant

/-- `SetKey` keeps the invariant. -/
theorem SetKey {m m' : Mask K} {pubKey : K} {enable : Bool} (inv : MaskInvariant m)
    (set : m.SetKey pubKey enable = .ok m') : MaskInvariant m' := by
  obtain ⟨_, -, set⟩ := SetKey_cases set
  exact inv.SetBit set

/-- A fresh mask from `NewMask` satisfies the invariant. -/
theorem NewMask {publics : List K} {myKey : Option K} {m : Mask K}
    (created : Harmony.NewMask publics myKey = .ok m) : MaskInvariant m := by
  -- Every bit of the zeroed bitmap is clear, and the empty sum is the zero key.
  have blank : MaskInvariant (⟨List.replicate ((publics.length + 7) >>> 3) 0, publics, 0,
      by simp⟩ : Mask K) := ⟨fun _ _ => testBit_replicate_zero _ _, by simp [setBits]⟩
  unfold Harmony.NewMask at created
  split at created
  · cases created
    exact blank
  · split at created
    · exact blank.SetBit created
    · cases created

/-- One call keeps the invariant and the keys; a call that fails leaves the mask itself. -/
theorem apply {m : Mask K} (inv : MaskInvariant m) (op : MaskOp K) :
    MaskInvariant (op.apply m) ∧ (op.apply m).publics = m.publics := by
  cases op with
  | SetBit i enable =>
    rcases orKeep_cases (m.SetBit i enable) m with kept | set
    · rw [MaskOp.apply, kept]
      exact ⟨inv, rfl⟩
    · exact ⟨inv.SetBit set, (SetBit_cases set).2.1⟩
  | SetKey pubKey enable =>
    rcases orKeep_cases (m.SetKey pubKey enable) m with kept | set
    · rw [MaskOp.apply, kept]
      exact ⟨inv, rfl⟩
    · obtain ⟨_, -, setBit⟩ := SetKey_cases set
      exact ⟨inv.SetKey set, (SetBit_cases setBit).2.1⟩
  | SetMask mask =>
    rcases orKeep_cases (m.SetMask mask) m with kept | set
    · rw [MaskOp.apply, kept]
      exact ⟨inv, rfl⟩
    · exact ⟨inv.SetMask set, SetMask_publics set⟩

/-- A run of calls keeps the invariant and the keys. -/
theorem run {m : Mask K} (inv : MaskInvariant m) (ops : List (MaskOp K)) :
    MaskInvariant (MaskOp.run m ops) ∧ (MaskOp.run m ops).publics = m.publics := by
  induction ops generalizing m with
  | nil => exact ⟨inv, rfl⟩
  | cons op ops ih =>
    obtain ⟨inv', samePublics⟩ := inv.apply op
    obtain ⟨invRun, samePublicsRun⟩ := ih inv'
    exact ⟨invRun, samePublicsRun.trans samePublics⟩

/-- A mask the program reaches, from `NewMask` through any calls, satisfies the invariant. -/
theorem of_NewMask_run {publics : List K} {myKey : Option K} {m₀ m : Mask K}
    (created : Harmony.NewMask publics myKey = .ok m₀) (ops : List (MaskOp K))
    (ran : MaskOp.run m₀ ops = m) : MaskInvariant m ∧ m.publics = publics := by
  obtain ⟨inv, samePublics⟩ := (NewMask created).run ops
  rw [ran] at inv samePublics
  exact ⟨inv, samePublics.trans (NewMask_publics created)⟩

end MaskInvariant

/-- Nine keys: two bytes, with seven padding bits in the second. -/
def nineKeys : List Int := [1, 2, 3, 4, 5, 6, 7, 8, 9]

/--
Over any run of calls from `NewMask`, the mask keeps its representation: the bitmap has
`ceil(n/8)` bytes, no bit at or past `n` is set, the aggregate is the group sum of the keys at the
set positions, `CountEnabled` counts those positions, and `GetPubKeyFromMask(true)` and
`GetPubKeyFromMask(false)` split the keys by their bit, in key order.
-/
theorem NewMask_run_representation {publics : List K} {myKey : Option K} {m₀ m : Mask K}
    (created : NewMask publics myKey = .ok m₀) (ops : List (MaskOp K))
    (ran : MaskOp.run m₀ ops = m) :
    m.publics = publics ∧ m.Bitmap.length = (publics.length + 7) / 8 ∧
      (∀ i, publics.length ≤ i → testBit m.Bitmap i = false) ∧
      m.AggregatePublic = ∑ i ∈ setBits m.Bitmap publics.length, publics.getD i 0 ∧
      m.CountEnabled = (setBits m.Bitmap publics.length).card ∧
      ∀ flag, m.GetPubKeyFromMask flag =
        (publics.zipIdx.filter (fun key => testBit m.Bitmap key.2 == flag)).map Prod.fst := by
  obtain ⟨inv, keys⟩ := MaskInvariant.of_NewMask_run created ops ran
  refine ⟨keys, ?_, keys ▸ inv.padding_clear, keys ▸ inv.aggregate, ?_, fun flag => ?_⟩
  · rw [m.bitmap_size, keys, Nat.shiftRight_eq_div_pow]
  · rw [Mask.CountEnabled, countSet_eq_card, keys]
  · rw [GetPubKeyFromMask_eq, keys]

/-- The fresh mask over `nineKeys`, and a run of every kind of call. -/
theorem NewMask_run_representation_nine_keys :
    NewMask nineKeys none = .ok ⟨[0, 0], nineKeys, 0, rfl⟩ ∧
      let m := MaskOp.run ⟨[0, 0], nineKeys, 0, rfl⟩
        [.SetBit 8 true, .SetKey 3 true, .SetMask [255, 255], .SetBit 9 true, .SetKey 5 false]
      m.publics = nineKeys ∧ m.Bitmap.length = (nineKeys.length + 7) / 8 ∧
        (∀ i, nineKeys.length ≤ i → testBit m.Bitmap i = false) ∧
        m.AggregatePublic = ∑ i ∈ setBits m.Bitmap nineKeys.length, nineKeys.getD i 0 ∧
        m.CountEnabled = (setBits m.Bitmap nineKeys.length).card ∧
        ∀ flag, m.GetPubKeyFromMask flag =
          (nineKeys.zipIdx.filter (fun key => testBit m.Bitmap key.2 == flag)).map Prod.fst :=
  have created : NewMask nineKeys none = .ok ⟨[0, 0], nineKeys, 0, rfl⟩ := rfl
  ⟨created, NewMask_run_representation created _ rfl⟩

/--
`SetMask` on a mask the program holds: a bitmap of `ceil(n/8)` bytes sets key `i` to bit `i % 8`
of byte `i / 8`, and `Mask()` then gives the bitmap with its bits at and past `n` cleared, so the
two round-trip exactly on bitmaps whose padding is clear; a bitmap of another length is refused
and the mask stays as it was.
-/
theorem SetMask_round_trip {publics : List K} {myKey : Option K} {m₀ m : Mask K}
    (created : NewMask publics myKey = .ok m₀) (ops : List (MaskOp K))
    (ran : MaskOp.run m₀ ops = m) (b : Bytes) :
    (b.length = (publics.length + 7) / 8 →
      ∃ m', m.SetMask b = .ok m' ∧
        (∀ i < publics.length, m'.IndexEnabled i = .ok ((b.getD (i / 8) 0).toNat.testBit (i % 8))) ∧
        m'.Mask.length = b.length ∧
        (∀ i, testBit m'.Mask i = (decide (i < publics.length) && testBit b i)) ∧
        (m'.Mask = b ↔ ∀ i, publics.length ≤ i → testBit b i = false)) ∧
    (b.length ≠ (publics.length + 7) / 8 →
      m.SetMask b = .error "mismatching bitmap lengths" ∧ (MaskOp.SetMask b).apply m = m) := by
  obtain ⟨inv, keys⟩ := MaskInvariant.of_NewMask_run created ops ran
  have width : m.Len = (publics.length + 7) / 8 := by
    rw [Mask.Len, keys, Nat.shiftRight_eq_div_pow]
  constructor
  · intro fits
    obtain ⟨samePublics', bits, -⟩ := alignLoop_spec b m (le_refl _)
    -- The loop's mask, read through `Mask()`: the bitmap's bits below `n`, and the clear padding.
    have read : ∀ i, testBit ((List.range m.publics.length).foldl (Mask.alignBit b) m).Mask i =
        (decide (i < publics.length) && testBit b i) := by
      intro i
      rw [Mask.Mask, bits, keys]
      by_cases below : i < publics.length
      · simp [below]
      · simp [below, inv.padding_clear i (keys ▸ Nat.le_of_not_lt below)]
    have length : ((List.range m.publics.length).foldl (Mask.alignBit b) m).Mask.length =
        b.length := by
      rw [Mask.Mask, Mask.bitmap_size, samePublics', fits, keys, Nat.shiftRight_eq_div_pow]
    refine ⟨_, SetMask_fits m (fits.trans width.symm), fun i below => ?_, length, read, ?_⟩
    · have held : i < ((List.range m.publics.length).foldl (Mask.alignBit b) m).publics.length := by
        rw [samePublics', keys]
        exact below
      rw [IndexEnabled_of_lt _ held, bits, keys, if_pos below, testBit_eq]
    · constructor
      · intro same i past
        rw [← same, read]
        simp [Nat.not_lt.mpr past]
      · intro clear
        apply ext_testBit length
        intro i
        rw [read]
        by_cases below : i < publics.length
        · simp [below]
        · simp [below, clear i (Nat.le_of_not_lt below)]
  · intro mismatch
    have refused : m.SetMask b = _ := SetMask_mismatch m (width ▸ mismatch)
    exact ⟨refused, by rw [MaskOp.apply, refused, orKeep_error]⟩

/-- The bitmap `[255, 1]` on the nine-key mask after one key was enabled: its padding is clear. -/
theorem SetMask_round_trip_nine_keys :
    NewMask nineKeys none = .ok ⟨[0, 0], nineKeys, 0, rfl⟩ ∧
      let m := MaskOp.run ⟨[0, 0], nineKeys, 0, rfl⟩ [.SetBit 2 true]
      ((([255, 1] : Bytes).length = (nineKeys.length + 7) / 8 →
        ∃ m', m.SetMask [255, 1] = .ok m' ∧
          (∀ i < nineKeys.length,
            m'.IndexEnabled i = .ok ((([255, 1] : Bytes).getD (i / 8) 0).toNat.testBit (i % 8))) ∧
          m'.Mask.length = ([255, 1] : Bytes).length ∧
          (∀ i, testBit m'.Mask i = (decide (i < nineKeys.length) && testBit [255, 1] i)) ∧
          (m'.Mask = [255, 1] ↔ ∀ i, nineKeys.length ≤ i → testBit [255, 1] i = false)) ∧
      (([255, 1] : Bytes).length ≠ (nineKeys.length + 7) / 8 →
        m.SetMask [255, 1] = .error "mismatching bitmap lengths" ∧
          (MaskOp.SetMask [255, 1]).apply m = m)) :=
  have created : NewMask nineKeys none = .ok ⟨[0, 0], nineKeys, 0, rfl⟩ := rfl
  ⟨created, SetMask_round_trip created _ rfl [255, 1]⟩

end Keys

end Harmony
