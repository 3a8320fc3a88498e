import Harmony.Lib.Hoare
import Harmony.Proofs.Core.State.Journal

/-!
Reverting to a snapshot (`Snapshot` and `RevertToSnapshot` of `statedb.go`) after a run of
changes. A run is what `TestSnapshotRandom` drives: the state's setters, snapshots left standing,
and snapshots reverted to after a nested run. Every setter is journalled, so a whole run is, and
reverting to the snapshot taken before it undoes exactly what it journalled: the getters read
what they read at the snapshot, and the revisions are what they were before it.
-/

namespace Harmony

open Go

namespace State

namespace Object

/-- `Suicide`'s change to a live object journals its flag and balance. -/
theorem suicide_restores {db : Database} (o : Object) :
    Restores db o ([.suicideChange o.address o.suicided o.data.Balance],
      { o with suicided := true, data.Balance := 0 }) where
  address_eq := rfl
  deleted_eq := rfl
  sound := fun _ _ _ => by simp_all [JournalEntry.Sound]
  undo_eq v := by
    simp only [Journal.undo_singleton, JournalEntry.revertView, Function.update_self,
      Function.update_idem]
    rfl

end Object

/-- Undoing a log added to a view gives the view back. -/
theorem JournalEntry.revertView_addLogChange (db : Database) (v : View) (txhash : Hash) (log : Log) :
    JournalEntry.revertView db (.addLogChange txhash)
      { v with logs := Function.update v.logs txhash (v.logs txhash ++ [log]),
               logSize := v.logSize + 1 } = .ok v := by
  simp only [JournalEntry.revertView, Function.update_self]
  -- Go deletes a transaction's only log and cuts the last one off a longer list.
  cases logged : v.logs txhash with
  | nil =>
    simp only [List.nil_append, Function.update_idem, add_sub_cancel_right]
    rw [← logged, Function.update_eq_self]
    rfl
  | cons first older =>
    rw [List.cons_append]
    split
    · simp_all
    · simp_all
    · rw [← List.cons_append, List.dropLast_concat, Function.update_idem, ← logged,
        Function.update_eq_self, add_sub_cancel_right]
      rfl

namespace DB

/-- The view reads the preimages as they are set. -/
@[simp] theorem view_preimages (s : DB) (preimages : Hash → Option Bytes) :
    { s with preimages := preimages }.view = { s.view with preimages := preimages } := rfl

/-- Writing two objects at one address leaves the second. -/
theorem setStateObject_setStateObject (s : DB) {o o' : Object} (same : o'.address = o.address) :
    (s.setStateObject o).setStateObject o' = s.setStateObject o' := by
  simp only [setStateObject, same, Function.update_idem]

section Setters

variable {s : DB} (wf : s.WellFormed)
include wf

theorem AddBalance_journalled (addr : Address) (amount : Int) :
    Journalled s (s.AddBalance addr amount) :=
  journalled_update wf addr (fun db o => o.AddBalance db amount)
    fun o => o.AddBalance_restores amount

theorem SubBalance_journalled (addr : Address) (amount : Int) :
    Journalled s (s.SubBalance addr amount) :=
  journalled_update wf addr (fun _ o => o.SubBalance amount) fun o => o.SubBalance_restores amount

theorem SetBalance_journalled (addr : Address) (amount : Int) :
    Journalled s (s.SetBalance addr amount) :=
  journalled_update wf addr (fun _ o => o.SetBalance amount) fun o => o.SetBalance_restores amount

theorem SetNonce_journalled (addr : Address) (nonce : UInt64) :
    Journalled s (s.SetNonce addr nonce) :=
  journalled_update wf addr (fun _ o => o.SetNonce nonce) fun o => o.SetNonce_restores nonce

theorem SetCode_journalled (addr : Address) (code : Bytes) :
    Journalled s (s.SetCode addr code) :=
  journalled_update wf addr (fun db o => o.SetCode db (db.Keccak256Hash code) code)
    fun o => o.SetCode_restores _ code

theorem SetState_journalled (addr : Address) (key value : Hash) :
    Journalled s (s.SetState addr key value) :=
  journalled_update wf addr (fun db o => o.SetState db key value)
    fun o => o.SetState_restores key value

/-- `CreateAccount` is journalled as a creation or as a reset, with the old balance kept. -/
theorem CreateAccount_journalled (addr : Address) : Journalled s (s.CreateAccount addr) := by
  unfold CreateAccount
  cases found : s.getStateObject addr with
  | none =>
    simp only [createObject, found]
    exact journalled_create wf found rfl rfl
  | some prev =>
    -- The fresh object is written twice, the second time with the old balance carried over.
    simp only [createObject, found]
    rw [setStateObject_setStateObject]
    · exact journalled_reset wf found rfl rfl
    · rfl

theorem Suicide_journalled (addr : Address) : Journalled s (s.Suicide addr).2 := by
  unfold Suicide
  cases found : s.getStateObject addr with
  | none => exact .refl wf
  | some obj =>
    -- The entry names the account by the address asked for, which is the object's own.
    obtain ⟨placed, -⟩ := getStateObject_live wf found
    subst placed
    exact journalled_update_live wf found obj.suicide_restores

/-- Setting the refund counter, with its old value journalled, is journalled. -/
theorem journalled_refund (refund : UInt64) :
    Journalled s { s.append [.refundChange s.refund] with refund := refund } :=
  .of_entries [.refundChange s.refund] wf rfl rfl rfl rfl rfl (by simp [JournalEntry.Sound]) rfl

theorem AddRefund_journalled (gas : UInt64) : Journalled s (s.AddRefund gas) :=
  journalled_refund wf _

/-- `SubRefund` panics below zero, and is journalled otherwise. -/
theorem SubRefund_journalled (gas : UInt64) :
    s.SubRefund gas = .error "Refund counter below zero" ∨
      ∃ t, s.SubRefund gas = .ok t ∧ Journalled s t := by
  unfold SubRefund
  by_cases below : gas > s.refund
  · exact .inl (if_pos below)
  · exact .inr ⟨_, if_neg below, journalled_refund wf _⟩

theorem AddLog_journalled (log : Log) : Journalled s (s.AddLog log) := by
  refine .of_entries [.addLogChange s.thash] wf rfl rfl rfl rfl rfl
    (by simp [JournalEntry.Sound]) ?_
  rw [Journal.undo_singleton]
  exact JournalEntry.revertView_addLogChange s.db s.view s.thash _

theorem AddPreimage_journalled (hash : Hash) (preimage : Bytes) :
    Journalled s (s.AddPreimage hash preimage) := by
  unfold AddPreimage
  cases recorded : s.preimages hash with
  | some _ => exact .refl wf
  | none =>
    refine .of_entries [.addPreimageChange hash] wf rfl rfl rfl rfl rfl
      (by simp [JournalEntry.Sound]) ?_
    -- Undoing forgets the preimage, which was not there before.
    simp only [Journal.undo_singleton, view_preimages, view_append, JournalEntry.revertView,
      Function.update_idem]
    rw [← recorded, Function.update_eq_self]
    rfl

/-- A snapshot journals nothing; it adds a revision with the next id. -/
theorem Snapshot_journalled : Journalled s s.Snapshot.2 :=
  ⟨wf, rfl, rfl, Nat.le_succ _, ⟨[⟨s.nextRevisionID, s.journal.length⟩], rfl, by simp [Snapshot]⟩,
    [], by simp [Snapshot], by simp, rfl⟩

end Setters

/-- Every revision still valid was issued by `Snapshot`, so its id is below the next one. -/
def RevisionsIssued (s : DB) : Prop := ∀ r ∈ s.validRevisions, r.id < s.nextRevisionID

/-- A journalled change keeps the revisions issued. -/
theorem Journalled.issued {s t : DB} (changed : Journalled s t) (issued : s.RevisionsIssued) :
    t.RevisionsIssued := by
  obtain ⟨later, revisions, taken⟩ := changed.revisions
  intro r listed
  rw [revisions] at listed
  rcases List.mem_append.mp listed with older | newer
  · exact (issued r older).trans_le changed.next_le
  · exact (taken r newer).2

/--
`RevertToSnapshot`'s binary search stops at the first revision whose id reaches `revid`, when the
ids below it are smaller and those from it on are not.
-/
theorem search_split (before after : List revision) {revid : Nat}
    (below : ∀ r ∈ before, r.id < revid) (above : ∀ r ∈ after, revid ≤ r.id) :
    sortSearch (before ++ after).length
      (fun i => decide (revid ≤ ((before ++ after).getD i ⟨0, 0⟩).id)) = before.length := by
  refine sortSearch_eq (by simp) (fun m bound => ?_) (fun m low high => ?_)
  · rw [List.getD_append _ _ _ _ bound, List.getD_eq_getElem _ _ bound]
    simpa using below _ (List.getElem_mem bound)
  · have inside : m - before.length < after.length := by
      simp only [List.length_append] at high
      omega
    rw [List.getD_append_right _ _ _ _ low, List.getD_eq_getElem _ _ inside]
    simpa using above _ (List.getElem_mem inside)

/-- An id past every valid revision's cannot be reverted to. -/
theorem RevertToSnapshot_unissued (s : DB) {revid : Nat}
    (past : ∀ r ∈ s.validRevisions, r.id < revid) :
    s.RevertToSnapshot revid = .error s!"revision id {revid} cannot be reverted" := by
  have searched := search_split _ [] past (by simp)
  rw [List.append_nil] at searched
  simp only [RevertToSnapshot, searched, List.getElem?_eq_none le_rfl]
  rfl

/--
Reverting to a snapshot after journalled changes succeeds: the search finds the snapshot's
revision, undoing the entries journalled since gives the view back, and the journal and the
revisions are cut back to what they were before the snapshot.
-/
theorem RevertToSnapshot_journalled {s t : DB} (issued : s.RevisionsIssued)
    (changed : Journalled s.Snapshot.2 t) :
    ∃ r, t.RevertToSnapshot s.Snapshot.1 = .ok r ∧ Journalled s r ∧ r.view = s.view ∧
      r.journal = s.journal ∧ r.validRevisions = s.validRevisions := by
  obtain ⟨wf, trie, db, next, ⟨later, revisions, taken⟩, entries, journal, sound, undone⟩ := changed
  have sound' : ∀ e ∈ entries, e.Sound t.trie := fun e listed => trie ▸ sound e listed
  -- The revisions are those before the snapshot, the snapshot's own, and those taken since.
  have split : t.validRevisions =
      s.validRevisions ++ ⟨s.nextRevisionID, s.journal.length⟩ :: later := by
    rw [revisions]
    simp [Snapshot]
  have searched := search_split _ (⟨s.nextRevisionID, s.journal.length⟩ :: later) issued
    (by
      rintro r (_ | ⟨_, later'⟩)
      · exact le_rfl
      · exact (Nat.le_succ _).trans (taken r later').1)
  -- Undoing the entries journalled since the snapshot gives its view back.
  have commutes := DB.undo_view wf entries sound'
  rw [db, undone] at commutes
  obtain ⟨u, reverted, restored⟩ :
      ∃ u, Journal.undo JournalEntry.revert entries t = .ok u ∧ u.view = s.view := by
    cases result : Journal.undo JournalEntry.revert entries t with
    | error _ => rw [result] at commutes; cases commutes
    | ok u =>
      rw [result] at commutes
      exact ⟨u, rfl, Except.ok.inj commutes⟩
  obtain ⟨wf', trie', db', next'⟩ := DB.undo_keeps wf sound' reverted
  refine ⟨{ u with journal := s.journal, validRevisions := s.validRevisions }, ?_,
    ⟨wf', trie'.trans trie, db'.trans db, ?_, ⟨[], by simp, by simp⟩, [], by simp, by simp,
      congrArg Except.ok restored⟩, restored, rfl, rfl⟩
  · have cut : t.journal.drop s.journal.length = entries := by
      rw [journal]
      exact List.drop_left' rfl
    have kept : t.journal.take s.journal.length = s.journal := by
      rw [journal]
      exact List.take_left' rfl
    show t.RevertToSnapshot s.nextRevisionID = _
    unfold RevertToSnapshot
    simp only [split, searched, List.getElem?_append_right le_rfl, Nat.sub_self]
    simp only [List.getElem?_cons_zero, ne_eq, not_true_eq_false, if_false, ← split, cut,
      reverted, kept]
    rw [split, List.take_left' rfl]
    rfl
  · -- Undoing keeps the next id, which the snapshot moved past `s`'s.
    have : s.Snapshot.2.nextRevisionID = s.nextRevisionID + 1 := rfl
    show s.nextRevisionID ≤ u.nextRevisionID
    omega

end DB

namespace DB

section Reads

variable (s : DB) (addr : Address)

/-- `Exist` reads whether the view has the account. -/
theorem Exist_eq_view : s.Exist addr = (s.view.accounts addr).isSome := by
  simp [Exist, view]

/-- `Empty` reads the account's nonce, balance and code hash off the view. -/
theorem Empty_eq_view : s.Empty addr = ((s.view.accounts addr).map fun acc =>
    acc.nonce == 0 && acc.balance == 0 && acc.codeHash == s.db.emptyCodeHash).getD true := by
  simp only [Empty, view]
  cases s.getStateObject addr <;> rfl

theorem GetBalance_eq_view :
    s.GetBalance addr = ((s.view.accounts addr).map AccountView.balance).getD 0 := by
  simp only [GetBalance, view]
  cases s.getStateObject addr <;> rfl

theorem GetNonce_eq_view :
    s.GetNonce addr = ((s.view.accounts addr).map AccountView.nonce).getD 0 := by
  simp only [GetNonce, view]
  cases s.getStateObject addr <;> rfl

theorem GetCode_eq_view :
    s.GetCode addr = ((s.view.accounts addr).map AccountView.code).getD [] := by
  simp only [GetCode, view]
  cases s.getStateObject addr <;> rfl

theorem GetCodeHash_eq_view :
    s.GetCodeHash addr = ((s.view.accounts addr).map AccountView.codeHash).getD (FixedBytes.zero 32) := by
  simp only [GetCodeHash, view]
  cases s.getStateObject addr <;> rfl

theorem GetState_eq_view (key : Hash) :
    s.GetState addr key = ((s.view.accounts addr).map (·.storage key)).getD (FixedBytes.zero 32) := by
  simp only [GetState, view]
  cases s.getStateObject addr <;> rfl

theorem HasSuicided_eq_view :
    s.HasSuicided addr = ((s.view.accounts addr).map AccountView.suicided).getD false := by
  simp only [HasSuicided, view]
  cases s.getStateObject addr <;> rfl

end Reads

/-- `t` answers every getter as `s` does. -/
structure SameReads (s t : DB) : Prop where
  Exist : ∀ addr, t.Exist addr = s.Exist addr
  Empty : ∀ addr, t.Empty addr = s.Empty addr
  GetBalance : ∀ addr, t.GetBalance addr = s.GetBalance addr
  GetNonce : ∀ addr, t.GetNonce addr = s.GetNonce addr
  GetCode : ∀ addr, t.GetCode addr = s.GetCode addr
  GetCodeHash : ∀ addr, t.GetCodeHash addr = s.GetCodeHash addr
  GetState : ∀ addr key, t.GetState addr key = s.GetState addr key
  HasSuicided : ∀ addr, t.HasSuicided addr = s.HasSuicided addr
  GetRefund : t.GetRefund = s.GetRefund
  GetLogs : ∀ hash, t.GetLogs hash = s.GetLogs hash
  Preimages : t.Preimages = s.Preimages

/-- States with one view over one database answer every getter alike. -/
theorem SameReads.of_view {s t : DB} (same : t.view = s.view) (db : t.db = s.db) :
    SameReads s t where
  Exist addr := by rw [Exist_eq_view, Exist_eq_view, same]
  Empty addr := by rw [Empty_eq_view, Empty_eq_view, same, db]
  GetBalance addr := by rw [GetBalance_eq_view, GetBalance_eq_view, same]
  GetNonce addr := by rw [GetNonce_eq_view, GetNonce_eq_view, same]
  GetCode addr := by rw [GetCode_eq_view, GetCode_eq_view, same]
  GetCodeHash addr := by rw [GetCodeHash_eq_view, GetCodeHash_eq_view, same]
  GetState addr key := by rw [GetState_eq_view, GetState_eq_view, same]
  HasSuicided addr := by rw [HasSuicided_eq_view, HasSuicided_eq_view, same]
  GetRefund := congrArg View.refund same
  GetLogs hash := congrFun (congrArg View.logs same) hash
  Preimages := congrArg View.preimages same

end DB

/-- A change `TestSnapshotRandom` makes, with the setters its actions leave out. -/
inductive Action where
  | createAccount (addr : Address)
  | addBalance (addr : Address) (amount : Int)
  | subBalance (addr : Address) (amount : Int)
  | setBalance (addr : Address) (amount : Int)
  | setNonce (addr : Address) (nonce : UInt64)
  | setCode (addr : Address) (code : Bytes)
  | setState (addr : Address) (key value : Hash)
  | suicide (addr : Address)
  | addRefund (gas : UInt64)
  | subRefund (gas : UInt64)
  | addLog (log : Log)
  | addPreimage (hash : Hash) (preimage : Bytes)

/-- An action's `fn`: the setter it calls. -/
def Action.apply : Action → DB → Outcome DB
  | .createAccount addr, s => pure (s.CreateAccount addr)
  | .addBalance addr amount, s => pure (s.AddBalance addr amount)
  | .subBalance addr amount, s => pure (s.SubBalance addr amount)
  | .setBalance addr amount, s => pure (s.SetBalance addr amount)
  | .setNonce addr nonce, s => pure (s.SetNonce addr nonce)
  | .setCode addr code, s => pure (s.SetCode addr code)
  | .setState addr key value, s => pure (s.SetState addr key value)
  | .suicide addr, s => pure (s.Suicide addr).2
  | .addRefund gas, s => pure (s.AddRefund gas)
  | .subRefund gas, s => s.SubRefund gas
  | .addLog log, s => pure (s.AddLog log)
  | .addPreimage hash preimage, s => pure (s.AddPreimage hash preimage)

/--
A run of changes: actions, snapshots left standing, and nested runs between a snapshot and the
revert to it.
-/
inductive Run where
  | done
  | act (action : Action) (rest : Run)
  | snapshot (rest : Run)
  | nested (inner rest : Run)

/-- Run the changes in order; a nested run is `id := Snapshot()`, the run, `RevertToSnapshot(id)`. -/
def Run.exec : Run → DB → Outcome DB
  | .done, s => pure s
  | .act action rest, s => do rest.exec (← action.apply s)
  | .snapshot rest, s => rest.exec s.Snapshot.2
  | .nested inner rest, s => do
    let (id, s) := s.Snapshot
    let s ← inner.exec s
    rest.exec (← s.RevertToSnapshot id)

/-- Every action is journalled, except a `SubRefund` below zero, which panics. -/
theorem Action.apply_journalled (action : Action) {s : DB} (wf : s.WellFormed) :
    action.apply s = .error "Refund counter below zero" ∨
      ∃ t, action.apply s = .ok t ∧ DB.Journalled s t := by
  cases action with
  | createAccount addr => exact .inr ⟨_, rfl, DB.CreateAccount_journalled wf addr⟩
  | addBalance addr amount => exact .inr ⟨_, rfl, DB.AddBalance_journalled wf addr amount⟩
  | subBalance addr amount => exact .inr ⟨_, rfl, DB.SubBalance_journalled wf addr amount⟩
  | setBalance addr amount => exact .inr ⟨_, rfl, DB.SetBalance_journalled wf addr amount⟩
  | setNonce addr nonce => exact .inr ⟨_, rfl, DB.SetNonce_journalled wf addr nonce⟩
  | setCode addr code => exact .inr ⟨_, rfl, DB.SetCode_journalled wf addr code⟩
  | setState addr key value => exact .inr ⟨_, rfl, DB.SetState_journalled wf addr key value⟩
  | suicide addr => exact .inr ⟨_, rfl, DB.Suicide_journalled wf addr⟩
  | addRefund gas => exact .inr ⟨_, rfl, DB.AddRefund_journalled wf gas⟩
  | subRefund gas => exact DB.SubRefund_journalled wf gas
  | addLog log => exact .inr ⟨_, rfl, DB.AddLog_journalled wf log⟩
  | addPreimage hash preimage => exact .inr ⟨_, rfl, DB.AddPreimage_journalled wf hash preimage⟩

/--
A run from a well-formed state with issued revisions is journalled, unless a `SubRefund` panics:
each nested run's revert succeeds and leaves the state journalled from before its snapshot.
-/
theorem Run.exec_journalled (run : Run) : ∀ {s : DB}, s.WellFormed → s.RevisionsIssued →
    run.exec s = .error "Refund counter below zero" ∨
      ∃ t, run.exec s = .ok t ∧ DB.Journalled s t := by
  induction run with
  | done => exact fun wf _ => .inr ⟨_, rfl, .refl wf⟩
  | act action rest ih =>
    intro s wf issued
    rcases action.apply_journalled wf with panicked | ⟨s₁, applied, first⟩
    · exact .inl (by simp only [exec, panicked]; rfl)
    · -- The rest of the run starts from the action's journalled state.
      rcases ih first.wf (first.issued issued) with panicked | ⟨t, ran, second⟩
      · exact .inl (by simp only [exec, applied, Except.ok_bind, panicked])
      · exact .inr ⟨t, by simp only [exec, applied, Except.ok_bind, ran], first.trans second⟩
  | snapshot rest ih =>
    intro s wf issued
    have taken := DB.Snapshot_journalled wf
    rcases ih taken.wf (taken.issued issued) with panicked | ⟨t, ran, rested⟩
    · exact .inl panicked
    · exact .inr ⟨t, ran, taken.trans rested⟩
  | nested inner rest ihInner ihRest =>
    intro s wf issued
    have taken := DB.Snapshot_journalled wf
    rcases ihInner taken.wf (taken.issued issued) with panicked | ⟨t₁, ran, changed⟩
    · exact .inl (by simp only [exec, panicked]; rfl)
    · -- The revert succeeds, and the rest of the run starts from the state it restores.
      obtain ⟨r, reverted, restored, -⟩ := DB.RevertToSnapshot_journalled issued changed
      rcases ihRest restored.wf (restored.issued issued) with panicked | ⟨t, rested, after⟩
      · exact .inl (by simp only [exec, ran, reverted, Except.ok_bind, panicked])
      · exact .inr ⟨t, by simp only [exec, ran, reverted, Except.ok_bind, rested],
          restored.trans after⟩

/-- A backing database with no code and empty storage, hashing everything to zero. -/
def blankDatabase : Database where
  ContractCode _ := []
  Storage _ _ := FixedBytes.zero 32
  Keccak256Hash _ := FixedBytes.zero 32

/-- A state with no accounts, logs, preimages or snapshots. -/
def blank : DB where
  db := blankDatabase
  trie _ := none
  stateObjects _ := none
  refund := 0
  thash := FixedBytes.zero 32
  bhash := FixedBytes.zero 32
  txIndex := 0
  logs _ := []
  logSize := 0
  preimages _ := none
  journal := []
  validRevisions := []
  nextRevisionID := 0

theorem blank_wellFormed : blank.WellFormed := by
  intro addr o live
  cases live

theorem blank_issued : blank.RevisionsIssued := by
  intro r listed
  cases listed

/-- A transfer, a storage write reverted in a nested run, and a refund partly taken back. -/
def sampleRun : Run :=
  .act (.addBalance (FixedBytes.zero 20) 5)
    (.nested (.act (.setState (FixedBytes.zero 20) (FixedBytes.zero 32) (FixedBytes.zero 32)) .done)
      (.act (.addRefund 3) (.act (.subRefund 2) .done)))

/--
`RevertToSnapshot(id)` after any run that follows `id := Snapshot()` succeeds, unless the run
itself panics in `SubRefund`. Every getter then reads what it read at the snapshot, and the journal
and the revisions are what they were before it: `id` and every snapshot taken after it are gone,
so reverting to `id` again panics, and the earlier ones are kept as they were.
-/
theorem RevertToSnapshot_restores_reads (s : DB) (wf : s.WellFormed) (issued : s.RevisionsIssued)
    (run : Run) :
    run.exec s.Snapshot.2 = .error "Refund counter below zero" ∨
      ∃ t, run.exec s.Snapshot.2 = .ok t ∧ ∃ r, t.RevertToSnapshot s.Snapshot.1 = .ok r ∧
        DB.SameReads s r ∧ r.journal = s.journal ∧ r.validRevisions = s.validRevisions ∧
        r.RevertToSnapshot s.Snapshot.1 =
          .error ("revision id " ++ toString s.nextRevisionID ++ " cannot be reverted") := by
  have taken := DB.Snapshot_journalled wf
  rcases run.exec_journalled taken.wf (taken.issued issued) with panicked | ⟨t, ran, changed⟩
  · exact .inl panicked
  · obtain ⟨r, reverted, restored, view, journal, revisions⟩ :=
      DB.RevertToSnapshot_journalled issued changed
    refine .inr ⟨t, ran, r, reverted, .of_view view restored.db_eq, journal, revisions, ?_⟩
    -- Only the revisions before the snapshot are left, and their ids are all below `id`.
    apply DB.RevertToSnapshot_unissued
    rw [revisions]
    exact issued

theorem RevertToSnapshot_restores_reads_blank :
    blank.WellFormed ∧ blank.RevisionsIssued ∧
      (sampleRun.exec blank.Snapshot.2 = .error "Refund counter below zero" ∨
        ∃ t, sampleRun.exec blank.Snapshot.2 = .ok t ∧
          ∃ r, t.RevertToSnapshot blank.Snapshot.1 = .ok r ∧
            DB.SameReads blank r ∧ r.journal = blank.journal ∧
            r.validRevisions = blank.validRevisions ∧
            r.RevertToSnapshot blank.Snapshot.1 =
              .error ("revision id " ++ toString blank.nextRevisionID ++ " cannot be reverted")) :=
  ⟨blank_wellFormed, blank_issued,
    RevertToSnapshot_restores_reads blank blank_wellFormed blank_issued sampleRun⟩

/--
Reverting to a snapshot drops the snapshot itself along with every later one: right after
`id := Snapshot()`, `RevertToSnapshot(id)` succeeds once and then panics.
-/
theorem RevertToSnapshot_drops_own_revision :
    ∃ r, blank.Snapshot.2.RevertToSnapshot blank.Snapshot.1 = .ok r ∧
      r.RevertToSnapshot blank.Snapshot.1 = .error "revision id 0 cannot be reverted" := by
  have unchanged := DB.Snapshot_journalled blank_wellFormed
  obtain ⟨r, reverted, -, -, -, revisions⟩ :=
    DB.RevertToSnapshot_journalled blank_issued (.refl unchanged.wf)
  refine ⟨r, reverted, ?_⟩
  -- No revision is left to find.
  rw [DB.RevertToSnapshot_unissued r (by simp [revisions, blank])]
  rfl

end State

end Harmony
