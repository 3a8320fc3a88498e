import Harmony.Node.Worker

/-!
What `SelectTransactionsForNewBlock` guarantees (`node/worker/worker.go`), and what it does not.

The three lists hold exactly the pending transactions, the selected ones in input order, and at
most one more than the cap is selected. But the cap is tested with `>` after the transaction is
applied, so one more transaction than the cap is selected; and a transaction for another shard is
marked invalid and then applied like any other, so it can be selected as well.
-/

namespace Harmony

/-- Every list the selection returns, in one. -/
def Selection.all (lists : Selection) : List Transaction :=
  lists.selected ++ lists.unselected ++ lists.invalid

namespace Worker

variable {σ ρ : Type} (B : Backend σ ρ)

@[simp] theorem withState_current_state (w : Worker σ ρ) (state : σ) :
    (w.withState state).current.state = state := rfl

/-- `commitTransaction` reports what `core.ApplyTransaction` reports under its snapshot. -/
theorem commitTransaction_ok {w : Worker σ ρ} {tx : Transaction} {receipt : ρ} {state : σ}
    (applied : B.ApplyTransaction (B.Snapshot w.current.state).2 tx = (.ok receipt, state)) :
    (commitTransaction B w tx).1 = .ok receipt := by
  simp [commitTransaction, applied]

/-- Committing a transaction leaves the worker's shard as it was. -/
@[simp] theorem commitTransaction_shardID (w : Worker σ ρ) (tx : Transaction) :
    (commitTransaction B w tx).2.shardID = w.shardID := by
  simp only [commitTransaction]
  split <;> rfl

/-- No iteration of the loop changes the worker's shard. -/
@[simp] theorem selectStep_shardID (n : Nat) (acc : Selection × Worker σ ρ) (tx : Transaction) :
    (selectStep B n acc tx).2.shardID = acc.2.shardID := by
  obtain ⟨lists, w⟩ := acc
  have kept := commitTransaction_shardID B (w.withState (B.Snapshot w.current.state).2) tx
  simp only [selectStep]
  generalize commitTransaction B _ tx = committed at kept ⊢
  obtain ⟨result, w'⟩ := committed
  generalize (if tx.ShardID ≠ w.shardID then _ else lists) = marked
  -- The worker is the committed one, or the committed one reverted, of the same shard either way.
  split
  · exact kept
  · cases result <;> exact kept

/--
What one iteration does to the lists: the shard test may mark the transaction invalid, and then it
is left pending past the cap, or below the cap dropped as invalid when it fails to apply, or
selected when it applies.
-/
theorem selectStep_cases (n : Nat) (lists : Selection) (w : Worker σ ρ) (tx : Transaction) :
    ∃ marked : Selection,
      (tx.ShardID = w.shardID ∧ marked = lists ∨
        tx.ShardID ≠ w.shardID ∧ marked = { lists with invalid := lists.invalid ++ [tx] }) ∧
      ((n < marked.selected.length ∧
          (selectStep B n (lists, w) tx).1 = { marked with unselected := marked.unselected ++ [tx] }) ∨
        (marked.selected.length ≤ n ∧
          (∃ err, (commitTransaction B (w.withState (B.Snapshot w.current.state).2) tx).1 =
            .error err) ∧
          (selectStep B n (lists, w) tx).1 = { marked with invalid := marked.invalid ++ [tx] }) ∨
        (marked.selected.length ≤ n ∧
          (∃ receipt, (commitTransaction B (w.withState (B.Snapshot w.current.state).2) tx).1 =
            .ok receipt) ∧
          (selectStep B n (lists, w) tx).1 = { marked with selected := marked.selected ++ [tx] })) := by
  simp only [selectStep]
  generalize committing : commitTransaction B _ tx = committed
  obtain ⟨result, w'⟩ := committed
  generalize marking : (if tx.ShardID ≠ w.shardID then _ else lists) = marked
  refine ⟨marked, ?_, ?_⟩
  · subst marking
    split
    · rename_i foreign
      exact .inr ⟨foreign, rfl⟩
    · rename_i here
      exact .inl ⟨not_not.mp here, rfl⟩
  · -- Past the cap the result is not looked at; below it, it decides between the two lists.
    by_cases full : n < marked.selected.length
    · simp [full]
    · cases result <;> simp [Nat.le_of_not_lt full, full]

/-- Marking a transaction invalid does not touch the selection. -/
theorem marked_selected {lists marked : Selection} {w : Worker σ ρ} {tx : Transaction}
    (marking : tx.ShardID = w.shardID ∧ marked = lists ∨
      tx.ShardID ≠ w.shardID ∧ marked = { lists with invalid := lists.invalid ++ [tx] }) :
    marked.selected = lists.selected := by
  rcases marking with ⟨-, rfl⟩ | ⟨-, rfl⟩ <;> rfl

/--
Below the cap, a transaction that applies is selected, whatever its shard, and a transaction for
another shard is listed as invalid as well.
-/
theorem selectStep_applied {n : Nat} {lists : Selection} (w : Worker σ ρ) {tx : Transaction}
    (below : lists.selected.length ≤ n)
    (applies : ∀ state, ∃ receipt state', B.ApplyTransaction state tx = (.ok receipt, state')) :
    (selectStep B n (lists, w) tx).1 = ⟨lists.selected ++ [tx], lists.unselected,
      lists.invalid ++ [tx].filter (fun t => t.ShardID ≠ w.shardID)⟩ := by
  -- `commitTransaction` snapshots the state the loop's own snapshot left, and applies there.
  obtain ⟨receipt, state', applied⟩ := applies (B.Snapshot (B.Snapshot w.current.state).2).2
  have committed := commitTransaction_ok B (w := w.withState (B.Snapshot w.current.state).2)
    (by rw [withState_current_state]; exact applied)
  obtain ⟨marked, marking, ⟨full, -⟩ | ⟨-, ⟨err, failed⟩, -⟩ | ⟨-, -, placed⟩⟩ :=
    selectStep_cases B n lists w tx
  · -- Marking leaves the selection, so the cap cannot have been passed.
    rw [marked_selected marking] at full
    omega
  · rw [committed] at failed
    cases failed
  · rcases marking with ⟨here, rfl⟩ | ⟨foreign, rfl⟩
    · simp [placed, here]
    · simp [placed, foreign]

/-- An iteration adds its transaction to the lists and nothing else. -/
theorem selectStep_mem_all (n : Nat) (lists : Selection) (w : Worker σ ρ) (tx t : Transaction) :
    t ∈ (selectStep B n (lists, w) tx).1.all ↔ t ∈ lists.all ∨ t = tx := by
  obtain ⟨marked, ⟨-, rfl⟩ | ⟨-, rfl⟩, ⟨-, placed⟩ | ⟨-, -, placed⟩ | ⟨-, -, placed⟩⟩ :=
    selectStep_cases B n lists w tx <;>
  · rw [placed]
    simp only [Selection.all, List.mem_append, List.mem_singleton]
    tauto

/-- An iteration selects its transaction, below the cap, or leaves the selection as it was. -/
theorem selectStep_selected (n : Nat) (lists : Selection) (w : Worker σ ρ) (tx : Transaction) :
    (selectStep B n (lists, w) tx).1.selected = lists.selected ∨
      (lists.selected.length ≤ n ∧
        (selectStep B n (lists, w) tx).1.selected = lists.selected ++ [tx]) := by
  obtain ⟨marked, marking, outcome⟩ := selectStep_cases B n lists w tx
  have same := marked_selected marking
  rcases outcome with ⟨-, placed⟩ | ⟨-, -, placed⟩ | ⟨below, -, placed⟩
  · exact .inl (by rw [placed, same])
  · exact .inl (by rw [placed, same])
  · exact .inr ⟨same ▸ below, by rw [placed, same]⟩

/--
The whole loop: the lists end up holding what they held and the transactions given, and nothing
else; the selection grows by a sublist of the transactions, and by no more than one past the cap.
-/
theorem selectLoop_lists (n : Nat) (txs : List Transaction) (acc : Selection × Worker σ ρ) :
    (∀ t, t ∈ (txs.foldl (selectStep B n) acc).1.all ↔ t ∈ acc.1.all ∨ t ∈ txs) ∧
      (txs.foldl (selectStep B n) acc).1.selected.Sublist (acc.1.selected ++ txs) ∧
      (acc.1.selected.length ≤ n + 1 →
        (txs.foldl (selectStep B n) acc).1.selected.length ≤ n + 1) := by
  induction txs generalizing acc with
  | nil => exact ⟨by simp, by simp, id⟩
  | cons tx txs ih =>
    obtain ⟨lists, w⟩ := acc
    obtain ⟨members, ordered, capped⟩ := ih (selectStep B n (lists, w) tx)
    refine ⟨fun t => ?_, ?_, fun bound => capped ?_⟩
    · rw [List.foldl_cons, members, selectStep_mem_all]
      simp only [List.mem_cons]
      tauto
    · -- The step's selection is a sublist of the old one followed by the transaction.
      have stepped : (selectStep B n (lists, w) tx).1.selected.Sublist (lists.selected ++ [tx]) := by
        rcases selectStep_selected B n lists w tx with same | ⟨-, added⟩
        · rw [same]
          exact List.sublist_append_left _ _
        · rw [added]
      rw [List.foldl_cons]
      refine ordered.trans ?_
      simpa using stepped.append_right txs
    · rcases selectStep_selected B n lists w tx with same | ⟨below, added⟩
      · rwa [same]
      · rw [added, List.length_append, List.length_singleton]
        omega

/--
What `SelectTransactionsForNewBlock` does guarantee: its lists hold exactly the pending
transactions, the selected ones in input order, and at most `maxNumTxs + 1` are selected.
-/
theorem SelectTransactionsForNewBlock_lists (w : Worker σ ρ) (txs : List Transaction)
    (maxNumTxs : Nat) :
    (∀ t, t ∈ (SelectTransactionsForNewBlock B w txs maxNumTxs).1.all ↔ t ∈ txs) ∧
      (SelectTransactionsForNewBlock B w txs maxNumTxs).1.selected.Sublist txs ∧
      (SelectTransactionsForNewBlock B w txs maxNumTxs).1.selected.length ≤ maxNumTxs + 1 := by
  obtain ⟨members, ordered, capped⟩ := selectLoop_lists B maxNumTxs txs (⟨[], [], []⟩, w)
  simp only [SelectTransactionsForNewBlock]
  refine ⟨fun t => ?_, by simpa using ordered, capped (Nat.zero_le _)⟩
  simpa [Selection.all] using members t

/--
A run in which every transaction applies and the cap is never passed before the last one: all of
them are selected, and those for another shard are listed as invalid too.
-/
theorem selectLoop_applied (n : Nat) (txs : List Transaction) (lists : Selection)
    (w : Worker σ ρ) (room : lists.selected.length + txs.length ≤ n + 1)
    (applies : ∀ tx ∈ txs,
      ∀ state, ∃ receipt state', B.ApplyTransaction state tx = (.ok receipt, state')) :
    (txs.foldl (selectStep B n) (lists, w)).1 = ⟨lists.selected ++ txs, lists.unselected,
      lists.invalid ++ txs.filter (fun t => t.ShardID ≠ w.shardID)⟩ := by
  induction txs generalizing lists w with
  | nil => simp
  | cons tx txs ih =>
    -- The step selects the head; the worker it leaves is of the same shard, with one less room.
    have below : lists.selected.length ≤ n := by
      simp only [List.length_cons] at room
      omega
    have stepped := selectStep_applied B w below (applies tx List.mem_cons_self)
    have same := selectStep_shardID B n (lists, w) tx
    rw [List.foldl_cons, ← Prod.mk.eta (p := selectStep B n (lists, w) tx),
      ih _ _ ?room (fun t later => applies t (List.mem_cons_of_mem tx later)), stepped, same]
    · -- The head joins the invalid ones exactly when it is for another shard.
      by_cases here : tx.ShardID = w.shardID <;> simp [here]
    case room =>
      rw [stepped, List.length_append, List.length_singleton]
      simp only [List.length_cons] at room
      omega

/--
`SelectTransactionsForNewBlock` on transactions that all apply, no more than `maxNumTxs + 1` of
them: it selects every one, and lists those for another shard as invalid as well.
-/
theorem SelectTransactionsForNewBlock_applied (w : Worker σ ρ) (txs : List Transaction)
    (maxNumTxs : Nat) (room : txs.length ≤ maxNumTxs + 1)
    (applies : ∀ tx ∈ txs,
      ∀ state, ∃ receipt state', B.ApplyTransaction state tx = (.ok receipt, state')) :
    (SelectTransactionsForNewBlock B w txs maxNumTxs).1 =
      ⟨txs, [], txs.filter (fun t => t.ShardID ≠ w.shardID)⟩ := by
  simp only [SelectTransactionsForNewBlock]
  rw [selectLoop_applied B maxNumTxs txs _ w (by simpa using room) applies]
  simp

/-- A backend on which every transaction applies. -/
def acceptingBackend : Backend Unit Unit := ⟨fun s => (0, s), fun s _ => s, fun s _ => (.ok (), s)⟩

/-- A cross-shard transfer from shard 1. -/
def crossShardTransfer : Transaction := ⟨0, 1, 21000, 1, none, 0, [], 27, 1, 1⟩

/--
For every cap, `maxNumTxs + 1` transactions that apply are all selected, one over the cap; and a
transaction for another shard among them is selected and listed as invalid.
-/
theorem SelectTransactionsForNewBlock_overfills_with_foreign (w : Worker σ ρ)
    (txs : List Transaction) (maxNumTxs : Nat) (overfull : txs.length = maxNumTxs + 1)
    (applies : ∀ tx ∈ txs,
      ∀ state, ∃ receipt state', B.ApplyTransaction state tx = (.ok receipt, state'))
    {foreign : Transaction} (pending : foreign ∈ txs) (elsewhere : foreign.ShardID ≠ w.shardID) :
    maxNumTxs < (SelectTransactionsForNewBlock B w txs maxNumTxs).1.selected.length ∧
      foreign ∈ (SelectTransactionsForNewBlock B w txs maxNumTxs).1.selected ∧
      foreign ∈ (SelectTransactionsForNewBlock B w txs maxNumTxs).1.invalid := by
  rw [SelectTransactionsForNewBlock_applied B w txs maxNumTxs overfull.le applies]
  refine ⟨by simp [overfull], pending, ?_⟩
  simp [pending, elsewhere]

theorem SelectTransactionsForNewBlock_overfills_with_foreign_shard_one :
    [crossShardTransfer].length = 0 + 1 ∧
      (∀ tx ∈ [crossShardTransfer], ∀ state, ∃ receipt state',
        acceptingBackend.ApplyTransaction state tx = (.ok receipt, state')) ∧
      crossShardTransfer ∈ [crossShardTransfer] ∧ crossShardTransfer.ShardID ≠ 0 ∧
      0 < (SelectTransactionsForNewBlock acceptingBackend ⟨⟨(), [], []⟩, 0⟩
        [crossShardTransfer] 0).1.selected.length ∧
      crossShardTransfer ∈ (SelectTransactionsForNewBlock acceptingBackend ⟨⟨(), [], []⟩, 0⟩
        [crossShardTransfer] 0).1.selected ∧
      crossShardTransfer ∈ (SelectTransactionsForNewBlock acceptingBackend ⟨⟨(), [], []⟩, 0⟩
        [crossShardTransfer] 0).1.invalid :=
  have applies : ∀ tx ∈ [crossShardTransfer], ∀ state, ∃ receipt state',
      acceptingBackend.ApplyTransaction state tx = (.ok receipt, state') :=
    fun _ _ _ => ⟨(), (), rfl⟩
  ⟨rfl, applies, List.mem_singleton_self _, by decide,
    SelectTransactionsForNewBlock_overfills_with_foreign acceptingBackend ⟨⟨(), [], []⟩, 0⟩
      [crossShardTransfer] 0 rfl applies (List.mem_singleton_self _) (by decide)⟩

end Worker

end Harmony
