import Harmony.Core.TxSortedMap
import Harmony.Lib.GoHeapLaws

/-!
The three stores of Go's `txSortedMap` agree. Over every sequence of operations the map holds one
transaction per nonce, under its nonce; the heap holds exactly the map's nonces, each once, in heap
order; and the cache, when there is one, is the map's transactions sorted by nonce. Each operation
then does what `Harmony.Core.txSortedMap` says of the sorted order: `Forward` pops exactly the
nonces below the threshold, `Cap` drops the highest, `Ready` takes the run from the least nonce,
and `Flatten` returns the sorted order.

`Holds items txs` says the map stores the transactions `txs`; `Indexes` adds the heap. The loops
pop the heap's root, which the heap laws make the least nonce, the head of the sorted order.
-/

namespace Harmony

open Go

namespace Core

namespace Indexed

theorem nonceLess_strictWeak : Heap.StrictWeak nonceLess := by
  constructor
  · intro a b lt
    simp only [nonceLess, decide_eq_true_eq, decide_eq_false_iff_not] at lt ⊢
    omega
  · intro a b c first second
    simp only [nonceLess, decide_eq_false_iff_not] at first second ⊢
    omega

/-- The map stores the transactions `txs`, each under its own nonce. -/
structure Holds (items : AList fun _ : Nat => Transaction) (txs : List Transaction) : Prop where
  keyed : ∀ entry ∈ items.entries, entry.1 = entry.2.AccountNonce
  values : (mapValues items).Perm txs

/-- The map stores `txs`, and the heap holds their nonces in heap order. -/
structure Indexes (items : AList fun _ : Nat => Transaction) (index : List Nat)
    (txs : List Transaction) : Prop extends Holds items txs where
  index_perm : index.Perm (txs.map (·.AccountNonce))
  heap : Heap.Ordered nonceLess index.length index

/-! ## The map -/

/-- Erasing a key from entries keyed by nonce filters the nonce out of the values. -/
theorem map_kerase {entries : List (Sigma fun _ : Nat => Transaction)} (nonce : Nat)
    (keyed : ∀ entry ∈ entries, entry.1 = entry.2.AccountNonce) (nodup : entries.NodupKeys) :
    (entries.kerase nonce).map Sigma.snd =
      (entries.map Sigma.snd).filter fun tx => tx.AccountNonce ≠ nonce := by
  induction entries with
  | nil => simp
  | cons entry entries ih =>
    have rest := fun e member => keyed e (List.mem_cons_of_mem _ member)
    obtain ⟨absent, nodup'⟩ := List.nodupKeys_cons.mp nodup
    by_cases here : nonce = entry.1
    · -- The key occurs once: the rest of the entries keep other nonces.
      subst here
      rw [List.kerase_cons_eq rfl, List.map_cons, List.filter_cons,
        if_neg (by simp [keyed entry List.mem_cons_self])]
      symm
      refine List.filter_eq_self.mpr fun tx member => ?_
      obtain ⟨e, listed, rfl⟩ := List.mem_map.mp member
      have other : e.1 ≠ entry.1 := fun same => absent (same ▸ List.mem_keys_of_mem listed)
      rw [rest e listed] at other
      simpa using other
    · rw [List.kerase_cons_ne here, List.map_cons, List.map_cons, List.filter_cons,
        if_pos (by simpa [← keyed entry List.mem_cons_self] using Ne.symm here), ih rest nodup']

variable {items : AList fun _ : Nat => Transaction} {txs : List Transaction}

theorem Holds.lookup_of_mem (holds : Holds items txs) {tx : Transaction} (listed : tx ∈ txs) :
    items.lookup tx.AccountNonce = some tx := by
  obtain ⟨entry, member, rfl⟩ := List.mem_map.mp (holds.values.mem_iff.mpr listed)
  rw [← holds.keyed entry member]
  exact AList.mem_lookup_iff.mpr member

theorem Holds.lookup_eq_none (holds : Holds items txs) {nonce : Nat}
    (absent : ∀ tx ∈ txs, tx.AccountNonce ≠ nonce) : items.lookup nonce = none := by
  cases found : items.lookup nonce with
  | none => rfl
  | some tx =>
    have member := AList.mem_lookup_iff.mp found
    have listed := holds.values.mem_iff.mp (List.mem_map_of_mem (f := Sigma.snd) member)
    exact absurd (holds.keyed _ member).symm (absent tx listed)

theorem Holds.erase (holds : Holds items txs) (nonce : Nat) :
    Holds (items.erase nonce) (txs.filter fun tx => tx.AccountNonce ≠ nonce) where
  keyed entry member := holds.keyed entry ((List.kerase_sublist _ _).subset member)
  values := by
    change ((items.entries.kerase nonce).map Sigma.snd).Perm _
    rw [map_kerase nonce holds.keyed items.nodupKeys]
    exact holds.values.filter _

theorem Holds.insert (holds : Holds items txs) (tx : Transaction) :
    Holds (items.insert tx.AccountNonce tx)
      (tx :: txs.filter fun t => t.AccountNonce ≠ tx.AccountNonce) where
  keyed entry member := by
    rw [AList.entries_insert] at member
    rcases List.mem_cons.mp member with rfl | later
    · rfl
    · exact holds.keyed entry ((List.kerase_sublist _ _).subset later)
  values := by
    unfold mapValues
    rw [AList.entries_insert, List.map_cons]
    exact List.Perm.cons tx (holds.erase tx.AccountNonce).values

/-! ## The heap -/

/-- Past the head of a sorted list, no transaction has the head's nonce. -/
theorem NonceSorted.filter_ne_head {t : Transaction} {rest : List Transaction}
    (sorted : NonceSorted (t :: rest)) :
    ((t :: rest).filter fun tx => tx.AccountNonce ≠ t.AccountNonce) = rest := by
  obtain ⟨above, -⟩ := List.pairwise_cons.mp sorted
  rw [List.filter_cons, if_neg (by simp)]
  exact List.filter_eq_self.mpr fun tx listed => by
    have := above tx listed
    simp only [ne_eq, decide_eq_true_eq]
    omega

variable {index : List Nat}

/-- The root of the heap is at most every nonce in it. -/
theorem Indexes.root_le (indexes : Indexes items index txs) {root nonce : Nat}
    (rooted : index[0]? = some root) (listed : nonce ∈ index) : root ≤ nonce := by
  obtain ⟨k, found⟩ := List.mem_iff_getElem?.mp listed
  have within : k < index.length := (List.getElem?_eq_some_iff.mp found).1
  have least := indexes.heap.root_least nonceLess_strictWeak le_rfl k within
  rw [Heap.lessAt_of_getElem? found rooted] at least
  simpa [nonceLess] using least

/-- The root of the heap is the least nonce, the head of the sorted order. -/
theorem Indexes.head? (indexes : Indexes items index txs) (sorted : NonceSorted txs) :
    index.head? = txs.head?.map (·.AccountNonce) := by
  cases txs with
  | nil => rw [List.Perm.eq_nil indexes.index_perm]; rfl
  | cons t rest =>
    cases index with
    | nil => exact absurd indexes.index_perm.length_eq (by simp)
    | cons root others =>
      simp only [List.head?_cons, Option.map_some, Option.some.injEq]
      obtain ⟨above, -⟩ := List.pairwise_cons.mp sorted
      -- The root is some transaction's nonce, so at least the head's.
      have lower : t.AccountNonce ≤ root := by
        obtain ⟨tx, listed, same⟩ := List.mem_map.mp (indexes.index_perm.mem_iff.mp
          List.mem_cons_self)
        rcases List.mem_cons.mp listed with rfl | later
        · omega
        · have := above tx later
          omega
      have upper := indexes.root_le rfl
        (indexes.index_perm.mem_iff.mpr (List.mem_map_of_mem List.mem_cons_self))
      omega

/-- Popping the heap takes the head of the sorted order off the map and the heap. -/
theorem Indexes.pop {t : Transaction} {rest : List Transaction}
    (indexes : Indexes items index (t :: rest)) (sorted : NonceSorted (t :: rest)) :
    items.lookup t.AccountNonce = some t ∧ ∃ others,
      Heap.Pop nonceLess index = some (t.AccountNonce, others) ∧
      Indexes (items.erase t.AccountNonce) others rest := by
  refine ⟨indexes.lookup_of_mem List.mem_cons_self, ?_⟩
  have rooted : index[0]? = some t.AccountNonce := by
    rw [← List.head?_eq_getElem?, indexes.head? sorted]
    rfl
  obtain ⟨others, popped, ordered, perm⟩ :=
    Heap.Pop_spec nonceLess_strictWeak indexes.heap rooted
  refine ⟨others, popped, ⟨?_, ?_, ordered⟩⟩
  · have held := indexes.erase t.AccountNonce
    rw [NonceSorted.filter_ne_head sorted] at held
    exact held
  · exact (perm.trans indexes.index_perm).cons_inv

/-! ## The loops -/

theorem forwardLoop_spec (threshold : Nat) (fuel : Nat) (removed : List (Option Transaction))
    (sorted : NonceSorted txs) (indexes : Indexes items index txs) (enough : index.length ≤ fuel) :
    ∃ items' index',
      txSortedMap.forwardLoop threshold fuel items index removed =
        (items', index', removed ++ (txs.takeWhile (·.AccountNonce < threshold)).map some) ∧
      Indexes items' index' (txs.dropWhile (·.AccountNonce < threshold)) := by
  induction fuel generalizing items index txs removed with
  | zero =>
    have empty : txs = [] := by
      have := indexes.index_perm.length_eq
      simp only [List.length_map] at this
      exact List.eq_nil_of_length_eq_zero (by omega)
    subst empty
    exact ⟨items, index, by simp [txSortedMap.forwardLoop], indexes⟩
  | succ fuel ih =>
    have rooted := indexes.head? sorted
    cases txs with
    | nil =>
      refine ⟨items, index, ?_, indexes⟩
      simp only [Option.map_none, List.head?_nil] at rooted
      simp [txSortedMap.forwardLoop, rooted]
    | cons t rest =>
      simp only [List.head?_cons, Option.map_some] at rooted
      by_cases below : t.AccountNonce < threshold
      · -- The least nonce is below the threshold: it is popped, and the loop goes on.
        obtain ⟨found, others, popped, indexes'⟩ := indexes.pop sorted
        have shorter : others.length ≤ fuel := by
          have := indexes.index_perm.length_eq
          have := indexes'.index_perm.length_eq
          simp only [List.length_map, List.length_cons] at *
          omega
        obtain ⟨items', index', looped, final⟩ :=
          ih (removed ++ [some t]) (List.pairwise_cons.mp sorted).2 indexes' shorter
        refine ⟨items', index', ?_, by simpa [List.dropWhile_cons, below] using final⟩
        rw [txSortedMap.forwardLoop, rooted]
        simp only [below, if_true, popped, found, looped, List.takeWhile_cons, decide_true,
          List.map_cons, List.append_assoc, List.singleton_append]
      · refine ⟨items, index, ?_, by simpa [List.dropWhile_cons, below] using indexes⟩
        rw [txSortedMap.forwardLoop, rooted]
        simp [below]

theorem Indexes.length_eq (indexes : Indexes items index txs) : index.length = txs.length := by
  simpa using indexes.index_perm.length_eq

theorem readyLoop_spec (fuel next : Nat) (ready : List (Option Transaction))
    (sorted : NonceSorted txs) (indexes : Indexes items index txs) (enough : index.length ≤ fuel) :
    ∃ items' index',
      txSortedMap.readyLoop fuel next items index ready =
        (items', index', ready ++ (txs.take (runLength next txs)).map some) ∧
      Indexes items' index' (txs.drop (runLength next txs)) := by
  induction fuel generalizing next items index txs ready with
  | zero =>
    have empty : txs = [] := List.eq_nil_of_length_eq_zero (by have := indexes.length_eq; omega)
    subst empty
    exact ⟨items, index, by simp [txSortedMap.readyLoop], indexes⟩
  | succ fuel ih =>
    have rooted := indexes.head? sorted
    cases txs with
    | nil =>
      refine ⟨items, index, ?_, indexes⟩
      simp only [Option.map_none, List.head?_nil] at rooted
      simp [txSortedMap.readyLoop, rooted, runLength]
    | cons t rest =>
      simp only [List.head?_cons, Option.map_some] at rooted
      by_cases next_one : t.AccountNonce = next
      · -- The least nonce continues the run: it is taken, and the loop looks for the next.
        subst next_one
        obtain ⟨found, others, popped, indexes'⟩ := indexes.pop sorted
        have shorter : others.length ≤ fuel := by
          have := indexes.length_eq
          have := indexes'.length_eq
          simp only [List.length_cons] at *
          omega
        obtain ⟨items', index', looped, final⟩ :=
          ih (t.AccountNonce + 1) (ready ++ [some t]) (List.pairwise_cons.mp sorted).2 indexes'
            shorter
        refine ⟨items', index', ?_, by simpa [runLength] using final⟩
        rw [txSortedMap.readyLoop, rooted]
        simp only [if_true, popped, found, Option.map_some, Option.getD_some, looped, runLength,
          List.take_succ_cons, List.map_cons, List.append_assoc, List.singleton_append]
      · refine ⟨items, index, ?_, by simpa [runLength, next_one] using indexes⟩
        rw [txSortedMap.readyLoop, rooted]
        simp [next_one, runLength]

/-- The last of a sorted list has a nonce no other one has. -/
theorem NonceSorted.filter_ne_last {front : List Transaction} {t : Transaction}
    (sorted : NonceSorted (front ++ [t])) :
    ((front ++ [t]).filter fun tx => tx.AccountNonce ≠ t.AccountNonce) = front := by
  have below := (List.pairwise_append.mp sorted).2.2
  rw [List.filter_append, List.filter_singleton]
  simp only [ne_eq, not_true_eq_false, decide_false, cond_false, List.append_nil]
  exact List.filter_eq_self.mpr fun tx listed => by
    have := below tx listed t List.mem_cons_self
    simp only [decide_eq_true_eq]
    omega

theorem capLoop_spec (threshold : Nat) (txs : List Transaction) (sorted : NonceSorted txs)
    (size : Nat) (drops : List (Option Transaction)) (within : size ≤ txs.length)
    (holds : Holds items (txs.take size)) :
    ∃ items', txSortedMap.capLoop threshold (txs.map (·.AccountNonce)) size items drops =
        .ok (items', drops ++ ((txs.take size).drop threshold).reverse.map some) ∧
      Holds items' ((txs.take size).take threshold) := by
  induction size generalizing items drops with
  | zero => exact ⟨items, by simp [txSortedMap.capLoop], by simpa using holds⟩
  | succ size ih =>
    by_cases kept : size + 1 ≤ threshold
    · refine ⟨items, ?_, ?_⟩
      · rw [txSortedMap.capLoop, if_pos kept, List.drop_eq_nil_of_le (by simp; omega)]
        simp
      · rwa [List.take_of_length_le (by simp; omega)]
    · -- Above the threshold, the transaction at `size` is dropped, the highest left.
      have inside : size < txs.length := by omega
      have last : txs.take (size + 1) = txs.take size ++ [txs[size]] := by
        rw [List.take_add_one, List.getElem?_eq_getElem inside]
        rfl
      have member : txs[size] ∈ txs.take (size + 1) :=
        last ▸ List.mem_append_right _ (List.mem_singleton_self _)
      have found := holds.lookup_of_mem member
      have erased := holds.erase txs[size].AccountNonce
      rw [last, NonceSorted.filter_ne_last (by
        rw [← last]; exact sorted.sublist (List.take_sublist _ _))] at erased
      obtain ⟨items', looped, final⟩ := ih (drops ++ [some txs[size]]) (by omega) erased
      refine ⟨items', ?_, ?_⟩
      · rw [txSortedMap.capLoop, if_neg kept, List.getElem?_map, List.getElem?_eq_getElem inside]
        simp only [Option.map_some, found, looped, last]
        rw [List.drop_append_of_le_length (by simp; omega)]
        simp
      · rw [last, List.take_append_of_le_length (by simp; omega)]
        exact final

/-! ## The sorted order -/

/-- Putting by nonce replaces the transaction at that nonce, if any. -/
theorem insertByNonce_perm (tx : Transaction) {txs : List Transaction} (sorted : NonceSorted txs) :
    (insertByNonce tx txs).Perm (tx :: txs.filter fun t => t.AccountNonce ≠ tx.AccountNonce) := by
  induction txs with
  | nil => exact List.Perm.refl _
  | cons t ts ih =>
    obtain ⟨above, sorted'⟩ := List.pairwise_cons.mp sorted
    have beyond : ∀ u ∈ ts, t.AccountNonce < u.AccountNonce := above
    unfold insertByNonce
    split
    · rename_i before
      rw [List.filter_eq_self.mpr fun u listed => by
        rcases List.mem_cons.mp listed with rfl | later
        · simp only [decide_eq_true_eq]; omega
        · have := beyond u later; simp only [decide_eq_true_eq]; omega]
    · split
      · rename_i same
        rw [List.filter_cons, if_neg (by simp [same]), List.filter_eq_self.mpr fun u listed => by
          have := beyond u listed; simp only [decide_eq_true_eq]; omega]
      · rename_i _ different
        rw [List.filter_cons, if_pos (by simp only [decide_eq_true_eq]; omega)]
        exact (List.Perm.cons t (ih sorted')).trans (List.Perm.swap tx t _)

/-- A nonce held once comes out of the list of nonces with its transaction. -/
theorem nonces_perm_of_mem {txs : List Transaction} (sorted : NonceSorted txs) {t : Transaction}
    (listed : t ∈ txs) :
    (txs.map (·.AccountNonce)).Perm
      (t.AccountNonce :: (txs.filter fun u => u.AccountNonce ≠ t.AccountNonce).map (·.AccountNonce)) := by
  have nodup : (txs.map (·.AccountNonce)).Nodup :=
    (List.pairwise_map.mpr sorted).imp fun below => Nat.ne_of_lt below
  refine (List.perm_cons_erase (List.mem_map_of_mem listed)).trans (List.Perm.cons _ ?_)
  have other : ((fun n => n != t.AccountNonce) ∘ fun u : Transaction => u.AccountNonce) =
      fun u => decide (u.AccountNonce ≠ t.AccountNonce) := by
    funext u
    by_cases same : u.AccountNonce = t.AccountNonce <;> simp [same]
  rw [nodup.erase_eq_filter, List.filter_map, other]

variable {m : txSortedMap} {a : Core.txSortedMap}

/-- Go's three stores agree with the sorted order `a`. -/
structure Refines (m : txSortedMap) (a : Core.txSortedMap) : Prop
    extends Indexes m.items m.index a.items where
  cached : ∀ cache, m.cache = some cache → cache = a.items

theorem Holds.perm {other : List Transaction} (holds : Holds items txs) (perm : txs.Perm other) :
    Holds items other := ⟨holds.keyed, holds.values.trans perm⟩

theorem new_refines : Refines txSortedMap.new Core.txSortedMap.empty where
  keyed entry member := by cases member
  values := List.Perm.refl _
  index_perm := List.Perm.refl _
  heap c positive below := by cases below
  cached cache none := by cases none

theorem Put_refines (refines : Refines m a) (tx : Transaction) :
    Refines (m.Put tx) (a.Put tx) := by
  have placed := insertByNonce_perm tx a.sorted
  refine ⟨⟨(refines.toHolds.insert tx).perm placed.symm, ?_, ?_⟩, fun _ none => by cases none⟩
  all_goals simp only [txSortedMap.Put, Core.txSortedMap.Put]
  all_goals by_cases present : ∃ t ∈ a.items, t.AccountNonce = tx.AccountNonce
  · -- A held nonce stays on the heap as it is.
    obtain ⟨t, listed, same⟩ := present
    have found : m.items.lookup tx.AccountNonce = some t := same ▸ refines.lookup_of_mem listed
    rw [found]
    refine refines.index_perm.trans ((nonces_perm_of_mem a.sorted listed).trans ?_)
    rw [same]
    exact (List.Perm.map _ placed).symm
  · -- A new nonce is pushed.
    have absent : ∀ t ∈ a.items, t.AccountNonce ≠ tx.AccountNonce :=
      fun t listed same => present ⟨t, listed, same⟩
    rw [refines.lookup_eq_none absent]
    refine (Heap.Push_perm _ _).trans ?_
    rw [List.filter_eq_self.mpr fun t listed => by simpa using absent t listed] at placed
    refine ((refines.index_perm.append_right _).trans (List.perm_append_singleton _ _)).trans ?_
    exact (List.Perm.map _ placed).symm
  · obtain ⟨t, listed, same⟩ := present
    have found : m.items.lookup tx.AccountNonce = some t := same ▸ refines.lookup_of_mem listed
    rw [found]
    exact refines.heap
  · have absent : ∀ t ∈ a.items, t.AccountNonce ≠ tx.AccountNonce :=
      fun t listed same => present ⟨t, listed, same⟩
    rw [refines.lookup_eq_none absent]
    simp only [Option.isNone_none, if_true]
    rw [Heap.length_Push]
    exact Heap.Push_ordered nonceLess_strictWeak refines.heap _

theorem Forward_refines (refines : Refines m a) (threshold : Nat) :
    ∃ m', m.Forward threshold = .ok ((a.Forward threshold).1.map some, m') ∧
      Refines m' (a.Forward threshold).2 := by
  obtain ⟨items', index', looped, final⟩ :=
    forwardLoop_spec threshold m.index.length [] a.sorted refines.toIndexes le_rfl
  unfold txSortedMap.Forward
  rw [looped]
  simp only [List.nil_append]
  cases cached : m.cache with
  | none => exact ⟨⟨items', index', none⟩, rfl, ⟨final, fun _ none => by cases none⟩⟩
  | some cache =>
    obtain rfl := refines.cached cache cached
    -- The cache's front shifts by the popped transactions, leaving the rest of the order.
    have whole := List.takeWhile_append_dropWhile (p := fun tx : Transaction =>
      decide (tx.AccountNonce < threshold)) (l := a.items)
    have shifted : a.items.drop (a.items.takeWhile (·.AccountNonce < threshold)).length =
        a.items.dropWhile (·.AccountNonce < threshold) :=
      calc a.items.drop (a.items.takeWhile (·.AccountNonce < threshold)).length
          = (a.items.takeWhile (·.AccountNonce < threshold) ++
              a.items.dropWhile (·.AccountNonce < threshold)).drop
              (a.items.takeWhile (·.AccountNonce < threshold)).length := by rw [whole]
        _ = a.items.dropWhile (·.AccountNonce < threshold) := List.drop_left
    refine ⟨⟨items', index', some (a.items.dropWhile (·.AccountNonce < threshold))⟩, ?_,
      ⟨final, fun cache held => by cases held; rfl⟩⟩
    have within : (a.items.takeWhile (·.AccountNonce < threshold)).length ≤ a.items.length :=
      (List.takeWhile_sublist _).length_le
    simp only [sliceFrom?, List.length_map, within, if_true, shifted]
    rfl

theorem Holds.keys_eq (holds : Holds items txs) :
    items.keys = (mapValues items).map (·.AccountNonce) := by
  unfold AList.keys List.keys mapValues
  rw [List.map_map]
  exact List.map_congr_left fun entry member => holds.keyed entry member

theorem Filter_refines (refines : Refines m a) (filter : Transaction → Bool) :
    (m.Filter filter).1.Perm (a.Filter filter).1 ∧
      Refines (m.Filter filter).2 (a.Filter filter).2 := by
  have removed : (m.items.entries.filter fun entry => filter entry.2).map Sigma.snd =
      (mapValues m.items).filter filter := by
    rw [mapValues, List.filter_map]
    rfl
  have kept_values : (m.items.entries.filter fun entry => !filter entry.2).map Sigma.snd =
      (mapValues m.items).filter fun tx => !filter tx := by
    rw [mapValues, List.filter_map]
    rfl
  -- What stays in the map holds the transactions the filter keeps.
  have kept : Holds ⟨m.items.entries.filter fun entry => !filter entry.2,
      m.items.nodupKeys.sublist List.filter_sublist⟩ (a.items.filter fun tx => !filter tx) :=
    ⟨fun entry member => refines.keyed entry (List.filter_sublist.subset member),
      by rw [mapValues, kept_values]; exact refines.values.filter _⟩
  have removed_perm := removed ▸ refines.values.filter filter
  unfold txSortedMap.Filter
  dsimp only
  split
  · refine ⟨removed_perm, ⟨⟨kept, ?_, ?_⟩, fun _ none => by cases none⟩⟩
    · rw [kept.keys_eq]
      exact (Heap.Init_perm _).trans (kept.values.map _)
    · rw [Heap.length_Init]
      exact Heap.Init_ordered nonceLess_strictWeak _
  · -- Nothing was selected: the filter keeps every transaction, and the stores stay.
    rename_i none_selected
    have empty : a.items.filter filter = [] := by
      have := removed_perm.length_eq
      exact List.eq_nil_of_length_eq_zero (by omega)
    have all_kept : (a.items.filter fun tx => !filter tx) = a.items :=
      List.filter_eq_self.mpr fun tx listed => by
        have := List.filter_eq_nil_iff.mp empty tx listed
        simpa using this
    refine ⟨removed_perm, ⟨⟨kept, ?_, refines.heap⟩, ?_⟩⟩
    · show m.index.Perm ((a.items.filter fun tx => !filter tx).map (·.AccountNonce))
      rw [all_kept]
      exact refines.index_perm
    · intro cache held
      rw [refines.cached cache held]
      exact all_kept.symm

theorem Indexes.length_items (indexes : Indexes items index txs) :
    items.entries.length = txs.length := by
  simpa [mapValues] using indexes.values.length_eq

theorem Cap_refines (refines : Refines m a) (threshold : Nat) :
    ∃ m', m.Cap threshold = .ok ((a.Cap threshold).1.map some, m') ∧
      Refines m' (a.Cap threshold).2 := by
  have length := refines.length_items
  unfold txSortedMap.Cap Core.txSortedMap.Cap
  by_cases short : a.items.length ≤ threshold
  · rw [if_pos (length ▸ short), if_pos short]
    exact ⟨m, rfl, refines⟩
  rw [if_neg (length ▸ short), if_neg short]
  -- Sorting the heap gives the nonces in order.
  have sorted_index : m.index.mergeSort (fun x y => decide (x ≤ y)) =
      a.items.map (·.AccountNonce) := by
    refine List.Perm.eq_of_pairwise (fun x y _ _ (first : x ≤ y) (second : y ≤ x) => by omega) ?_ ?_
      ((List.mergeSort_perm _ _).trans refines.index_perm)
    · exact (List.pairwise_mergeSort (fun x y z first second => by simp_all; omega)
        (fun x y => by simp; omega) m.index).imp (by simp)
    · exact (List.pairwise_map.mpr a.sorted).imp le_of_lt
  obtain ⟨items', looped, final⟩ := capLoop_spec threshold a.items a.sorted a.items.length []
    le_rfl (by rw [List.take_length]; exact refines.toHolds)
  rw [List.take_length] at looped final
  dsimp only
  rw [length, sorted_index, looped]
  have cut : slice? (a.items.map (·.AccountNonce)) 0 threshold =
      some ((a.items.take threshold).map (·.AccountNonce)) := by
    rw [slice?_of_le (Nat.zero_le _) (by simp; omega)]
    simp [List.map_take]
  have index : Indexes items' (Heap.Init nonceLess ((a.items.take threshold).map (·.AccountNonce)))
      (a.items.take threshold) :=
    ⟨final, Heap.Init_perm _, by
      rw [Heap.length_Init]
      exact Heap.Init_ordered nonceLess_strictWeak _⟩
  simp only [bind, Except.bind, cut, List.nil_append]
  cases cached : m.cache with
  | none => exact ⟨_, rfl, ⟨index, fun _ none => by cases none⟩⟩
  | some cache =>
    obtain rfl := refines.cached cache cached
    -- The cache's back shifts by the dropped transactions.
    have kept : a.items.length - (a.items.length - threshold) = threshold := by omega
    simp only [List.length_map, List.length_reverse, List.length_drop,
      show ¬a.items.length < a.items.length - threshold by omega, if_false, kept]
    refine ⟨_, rfl, ⟨index, fun cache held => ?_⟩⟩
    injection held with held
    exact held.symm

theorem Remove_refines (refines : Refines m a) (nonce : Nat) :
    (m.Remove nonce).1 = (a.Remove nonce).1 ∧ Refines (m.Remove nonce).2 (a.Remove nonce).2 := by
  unfold txSortedMap.Remove Core.txSortedMap.Remove Core.txSortedMap.Get
  by_cases present : ∃ t ∈ a.items, t.AccountNonce = nonce
  · obtain ⟨t, listed, rfl⟩ := present
    have searched : (a.items.find? (·.AccountNonce = t.AccountNonce)).isSome :=
      List.find?_isSome.mpr ⟨t, listed, by simp⟩
    obtain ⟨u, found⟩ := Option.isSome_iff_exists.mp searched
    rw [refines.lookup_of_mem listed, found]
    -- The nonce is on the heap, and `heap.Remove` takes it off at its first position.
    have on_heap : t.AccountNonce ∈ m.index :=
      refines.index_perm.mem_iff.mpr (List.mem_map_of_mem listed)
    obtain ⟨i, located⟩ := Option.isSome_iff_exists.mp (List.isSome_idxOf?.mpr on_heap)
    obtain ⟨within, at_i, -⟩ := List.idxOf?_eq_some_iff.mp located
    obtain ⟨others, removed, ordered, perm⟩ := Heap.Remove_spec nonceLess_strictWeak refines.heap
      (i := i) (by rw [List.getElem?_eq_getElem within, at_i])
    refine ⟨rfl, ⟨⟨refines.erase t.AccountNonce, ?_, ?_⟩, fun _ none => by cases none⟩⟩
    · simp only [located, removed, Option.map_some, Option.getD_some]
      exact (perm.trans (refines.index_perm.trans (nonces_perm_of_mem a.sorted listed))).cons_inv
    · simp only [located, removed, Option.map_some, Option.getD_some]
      exact ordered
  · have absent : ∀ t ∈ a.items, t.AccountNonce ≠ nonce :=
      fun t listed same => present ⟨t, listed, same⟩
    rw [refines.lookup_eq_none absent, List.find?_eq_none.mpr fun t listed => by
      simpa using absent t listed]
    exact ⟨rfl, refines⟩

theorem Ready_refines (refines : Refines m a) (start : Nat) :
    (m.Ready start).1 = (a.Ready start).1.map some ∧
      Refines (m.Ready start).2 (a.Ready start).2 := by
  obtain ⟨txs, sorted⟩ := a
  have rooted := refines.head? sorted
  cases txs with
  | nil =>
    simp only [List.head?_nil, Option.map_none] at rooted
    simp only [txSortedMap.Ready, Core.txSortedMap.Ready, rooted]
    exact ⟨by simp, refines⟩
  | cons t rest =>
    simp only [List.head?_cons, Option.map_some] at rooted
    by_cases early : start < t.AccountNonce
    · simp only [txSortedMap.Ready, Core.txSortedMap.Ready, rooted, early, if_true]
      exact ⟨by simp, refines⟩
    · -- The run from the least nonce comes off the heap in order.
      obtain ⟨items', index', looped, final⟩ :=
        readyLoop_spec m.index.length t.AccountNonce [] sorted refines.toIndexes le_rfl
      simp only [txSortedMap.Ready, Core.txSortedMap.Ready, rooted, early, if_false, looped,
        List.nil_append]
      exact ⟨by simp, ⟨final, fun _ none => by cases none⟩⟩

/-- Two transactions of a sorted list with one nonce are the same. -/
theorem NonceSorted.eq_of_nonce_eq {txs : List Transaction} (sorted : NonceSorted txs)
    {t u : Transaction} (first : t ∈ txs) (second : u ∈ txs)
    (same : t.AccountNonce = u.AccountNonce) : t = u := by
  have nodup : (txs.map (·.AccountNonce)).Nodup :=
    (List.pairwise_map.mpr sorted).imp fun below => Nat.ne_of_lt below
  exact List.inj_on_of_nodup_map nodup first second same

/-- Sorting the map's values by nonce gives the sorted order. -/
theorem Holds.mergeSort_eq (holds : Holds items txs) (sorted : NonceSorted txs) :
    (mapValues items).mergeSort (fun x y => decide (x.AccountNonce ≤ y.AccountNonce)) = txs := by
  have perm := (List.mergeSort_perm (mapValues items)
    fun x y => decide (x.AccountNonce ≤ y.AccountNonce)).trans holds.values
  refine List.Perm.eq_of_pairwise
    (fun x y first second (up : x.AccountNonce ≤ y.AccountNonce)
      (down : y.AccountNonce ≤ x.AccountNonce) =>
      NonceSorted.eq_of_nonce_eq sorted (perm.mem_iff.mp first) second (by omega)) ?_ ?_ perm
  · exact (List.pairwise_mergeSort (fun x y z first second => by simp_all; omega)
      (fun x y => by simp; omega) _).imp (by simp)
  · exact sorted.imp le_of_lt

theorem Flatten_refines (refines : Refines m a) :
    (m.Flatten).1 = a.Flatten ∧ Refines (m.Flatten).2 a := by
  have sorted_cache : (m.Flatten).1 = a.items := by
    unfold txSortedMap.Flatten
    cases cached : m.cache with
    | none => exact refines.mergeSort_eq a.sorted
    | some cache => exact refines.cached cache cached
  refine ⟨sorted_cache, ⟨refines.toIndexes, fun cache held => ?_⟩⟩
  injection held with held
  exact held ▸ sorted_cache

/-- A call on a `txSortedMap`. -/
inductive SortedMapOp where
  | Put (tx : Transaction)
  | Forward (threshold : Nat)
  | Filter (filter : Transaction → Bool)
  | Cap (threshold : Nat)
  | Remove (nonce : Nat)
  | Ready (start : Nat)
  | Flatten

namespace SortedMapOp

/-- The map a call leaves, or the panic it raises. -/
def apply (m : txSortedMap) : SortedMapOp → Except String txSortedMap
  | Put tx => .ok (m.Put tx)
  | Forward threshold => (m.Forward threshold).map Prod.snd
  | Filter filter => .ok (m.Filter filter).2
  | Cap threshold => (m.Cap threshold).map Prod.snd
  | Remove nonce => .ok (m.Remove nonce).2
  | Ready start => .ok (m.Ready start).2
  | Flatten => .ok m.Flatten.2

/-- The sorted order a call leaves. -/
def applySorted (a : Core.txSortedMap) : SortedMapOp → Core.txSortedMap
  | Put tx => a.Put tx
  | Forward threshold => (a.Forward threshold).2
  | Filter filter => (a.Filter filter).2
  | Cap threshold => (a.Cap threshold).2
  | Remove nonce => (a.Remove nonce).2
  | Ready start => (a.Ready start).2
  | Flatten => a

end SortedMapOp

/-- The map a sequence of calls leaves, or the first panic. -/
def runOps (m : txSortedMap) (ops : List SortedMapOp) : Except String txSortedMap :=
  ops.foldlM SortedMapOp.apply m

/-- The sorted order a sequence of calls leaves. -/
def runSorted (a : Core.txSortedMap) (ops : List SortedMapOp) : Core.txSortedMap :=
  ops.foldl SortedMapOp.applySorted a

/-- Every call keeps the stores in agreement with the sorted order, and none panics. -/
theorem apply_refines (refines : Refines m a) (op : SortedMapOp) :
    ∃ m', op.apply m = .ok m' ∧ Refines m' (op.applySorted a) := by
  cases op with
  | Put tx => exact ⟨_, rfl, Put_refines refines tx⟩
  | Forward threshold =>
    obtain ⟨m', forwarded, refines'⟩ := Forward_refines refines threshold
    exact ⟨m', by simp [SortedMapOp.apply, forwarded, Except.map], refines'⟩
  | Filter filter => exact ⟨_, rfl, (Filter_refines refines filter).2⟩
  | Cap threshold =>
    obtain ⟨m', capped, refines'⟩ := Cap_refines refines threshold
    exact ⟨m', by simp [SortedMapOp.apply, capped, Except.map], refines'⟩
  | Remove nonce => exact ⟨_, rfl, (Remove_refines refines nonce).2⟩
  | Ready start => exact ⟨_, rfl, (Ready_refines refines start).2⟩
  | Flatten => exact ⟨_, rfl, (Flatten_refines refines).2⟩

theorem runOps_refines (refines : Refines m a) (ops : List SortedMapOp) :
    ∃ m', runOps m ops = .ok m' ∧ Refines m' (runSorted a ops) := by
  induction ops generalizing m a with
  | nil => exact ⟨m, rfl, refines⟩
  | cons op ops ih =>
    obtain ⟨m₁, applied, refines₁⟩ := apply_refines refines op
    obtain ⟨m', ran, refines'⟩ := ih refines₁
    refine ⟨m', ?_, refines'⟩
    simp only [runOps, List.foldlM_cons, applied, bind, Except.bind]
    exact ran

/-! ## What the calls do -/

/-- The map's transactions sorted by nonce. -/
def sortedItems (m : txSortedMap) : List Transaction :=
  (mapValues m.items).mergeSort fun x y => decide (x.AccountNonce ≤ y.AccountNonce)

/-- How many transactions `Ready` takes: the run from the least nonce, when that is at most `start`. -/
def readyLength (start : Nat) : List Transaction → Nat
  | [] => 0
  | t :: rest => if start < t.AccountNonce then 0 else runLength t.AccountNonce (t :: rest)

theorem NonceSorted.takeWhile_lt {txs : List Transaction} (sorted : NonceSorted txs)
    (threshold : Nat) :
    txs.takeWhile (·.AccountNonce < threshold) = txs.filter (·.AccountNonce < threshold) := by
  induction txs with
  | nil => rfl
  | cons t rest ih =>
    obtain ⟨above, sorted'⟩ := List.pairwise_cons.mp sorted
    by_cases below : t.AccountNonce < threshold
    · simp [below, ih sorted']
    · -- Past a nonce at the threshold, every later one is above it.
      have none_below : rest.filter (·.AccountNonce < threshold) = [] :=
        List.filter_eq_nil_iff.mpr fun u listed => by have := above u listed; simp; omega
      simp [below, none_below]

theorem NonceSorted.dropWhile_lt {txs : List Transaction} (sorted : NonceSorted txs)
    (threshold : Nat) :
    txs.dropWhile (·.AccountNonce < threshold) = txs.filter (threshold ≤ ·.AccountNonce) := by
  induction txs with
  | nil => rfl
  | cons t rest ih =>
    obtain ⟨above, sorted'⟩ := List.pairwise_cons.mp sorted
    by_cases below : t.AccountNonce < threshold
    · simp [below, ih sorted']
    · have all_above : rest.filter (threshold ≤ ·.AccountNonce) = rest :=
        List.filter_eq_self.mpr fun u listed => by have := above u listed; simp; omega
      rw [List.dropWhile_cons, if_neg (by simpa using below), List.filter_cons,
        if_pos (by simp; omega), all_above]

theorem Refines.sortedItems_eq (refines : Refines m a) : sortedItems m = a.items :=
  refines.mergeSort_eq a.sorted

/--
Over every sequence of calls from `newTxSortedMap`, the heap holds exactly the map's nonces, each
once, in heap order; a cache is the map's transactions sorted by nonce; `Flatten` returns them in
increasing nonce order; and at the state reached, `Forward`, `Cap` and `Ready` take exactly the
transactions below a nonce, above the `threshold` lowest, and of the run from the least nonce.
-/
theorem txSortedMap_stores_agree (ops : List SortedMapOp) :
    ∃ m, runOps txSortedMap.new ops = .ok m ∧
      m.index.Perm m.items.keys ∧ m.index.Nodup ∧ Heap.Ordered nonceLess m.index.length m.index ∧
      (∀ cache, m.cache = some cache → cache = sortedItems m) ∧
      m.Flatten.1 = sortedItems m ∧ NonceSorted m.Flatten.1 ∧
      (∀ threshold, ∃ m', m.Forward threshold =
          .ok (((sortedItems m).filter (·.AccountNonce < threshold)).map some, m') ∧
        sortedItems m' = (sortedItems m).filter (threshold ≤ ·.AccountNonce)) ∧
      (∀ threshold, ∃ m', m.Cap threshold =
          .ok (((sortedItems m).drop threshold).reverse.map some, m') ∧
        sortedItems m' = (sortedItems m).take threshold) ∧
      (∀ start, (m.Ready start).1 =
          ((sortedItems m).take (readyLength start (sortedItems m))).map some ∧
        sortedItems (m.Ready start).2 = (sortedItems m).drop (readyLength start (sortedItems m))) := by
  obtain ⟨m, ran, refines⟩ := runOps_refines new_refines ops
  set a := runSorted Core.txSortedMap.empty ops
  have sorted_eq : sortedItems m = a.items := refines.sortedItems_eq
  have keys_perm : m.index.Perm m.items.keys := by
    rw [refines.keys_eq]
    exact refines.index_perm.trans (refines.values.map _).symm
  refine ⟨m, ran, keys_perm, keys_perm.nodup_iff.mpr m.items.keys_nodup, refines.heap,
    fun cache held => sorted_eq ▸ refines.cached cache held, ?_, ?_, ?_, ?_, ?_⟩
  · rw [sorted_eq]
    exact (Flatten_refines refines).1
  · rw [(Flatten_refines refines).1]
    exact a.sorted
  · intro threshold
    obtain ⟨m', forwarded, refines'⟩ := Forward_refines refines threshold
    refine ⟨m', ?_, ?_⟩
    · rw [forwarded, sorted_eq, ← NonceSorted.takeWhile_lt a.sorted]
      rfl
    · rw [refines'.sortedItems_eq, sorted_eq, ← NonceSorted.dropWhile_lt a.sorted]
      rfl
  · intro threshold
    obtain ⟨m', capped, refines'⟩ := Cap_refines refines threshold
    refine ⟨m', ?_, ?_⟩ <;> rw [sorted_eq]
    · rw [capped]
      unfold Core.txSortedMap.Cap
      split
      · rename_i short
        rw [List.drop_eq_nil_of_le short]
        rfl
      · rfl
    · rw [refines'.sortedItems_eq]
      unfold Core.txSortedMap.Cap
      split
      · rename_i short
        exact (List.take_of_length_le short).symm
      · rfl
  · intro start
    obtain ⟨taken, refines'⟩ := Ready_refines refines start
    rw [sorted_eq, taken, refines'.sortedItems_eq]
    unfold Core.txSortedMap.Ready
    split
    · rename_i empty
      simp [empty, readyLength]
    · rename_i t rest listed
      simp only [listed, readyLength]
      split
      · simp [listed]
      · simp

end Indexed

end Core

end Harmony
