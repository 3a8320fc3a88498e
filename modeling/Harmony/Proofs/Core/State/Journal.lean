import Harmony.Core.State.StateDB

/-!
What reverting to a snapshot restores. Observers read the state through `getStateObject`, so what
they see is a `View`: each account's nonce, balance, code hash, code and storage as the getters
read them, with the refund counter, logs and preimages. Undoing a journal entry changes the view
as `revertView` says, whatever the caches hold, and every setter journals what `revertView` needs
to give its view back.
-/

namespace Harmony

open Go

namespace State

/-- One account as the getters read it. -/
structure AccountView where
  /-- `GetNonce`. -/
  nonce : UInt64
  /-- `GetBalance`. -/
  balance : Int
  /-- `GetCodeHash`. -/
  codeHash : Hash
  /-- `GetCode`. -/
  code : Bytes
  /-- `GetState`, key by key. -/
  storage : Hash → Hash
  /-- `HasSuicided`. -/
  suicided : Bool

/-- The state as the getters read it. -/
structure View where
  /-- Each account that `Exist` reports, as the getters read it. -/
  accounts : Address → Option AccountView
  /-- `GetRefund`. -/
  refund : UInt64
  /-- `GetLogs`. -/
  logs : Hash → List Log
  /-- The count `AddLog` stamps the next log with. -/
  logSize : UInt64
  /-- `Preimages`. -/
  preimages : Hash → Option Bytes

/-- How the getters read an object. -/
def Object.view (db : Database) (o : Object) : AccountView :=
  ⟨o.data.Nonce, o.data.Balance, o.data.CodeHash, o.Code db, o.GetState db, o.suicided⟩

/-- How the getters read the state. -/
def DB.view (s : DB) : View :=
  ⟨fun addr => (s.getStateObject addr).map (Object.view s.db), s.refund, s.logs, s.logSize,
    s.preimages⟩

/-- The code `Code` reads after `setCode(prevhash, prevcode)`. -/
def restoredCode (db : Database) (prevcode : Bytes) (prevhash : Hash) : Bytes :=
  if prevcode ≠ [] then prevcode else if prevhash = db.emptyCodeHash then [] else db.ContractCode prevhash

/-- Change one account's view, panicking on a missing account as a revert does. -/
def View.modify (v : View) (account : Address) (change : AccountView → AccountView) :
    Outcome View :=
  match v.accounts account with
  | some acc => pure { v with accounts := Function.update v.accounts account (some (change acc)) }
  | none => throw "nil pointer dereference"

/-- What undoing one entry does to the view. -/
def JournalEntry.revertView (db : Database) : JournalEntry → View → Outcome View
  | .createObjectChange account, v =>
    pure { v with accounts := Function.update v.accounts account none }
  | .resetObjectChange prev, v =>
    pure { v with accounts := Function.update v.accounts prev.address (some (prev.view db)) }
  | .suicideChange account prev prevbalance, v =>
    match v.accounts account with
    | some acc =>
      let restored := { acc with suicided := prev, balance := prevbalance }
      pure { v with accounts := Function.update v.accounts account (some restored) }
    | none => pure v
  | .balanceChange account prev, v => v.modify account fun acc => { acc with balance := prev }
  | .nonceChange account prev, v => v.modify account fun acc => { acc with nonce := prev }
  | .storageChange account key prevalue, v =>
    v.modify account fun acc => { acc with storage := Function.update acc.storage key prevalue }
  | .codeChange account prevcode prevhash, v =>
    v.modify account fun acc =>
      { acc with code := restoredCode db prevcode prevhash, codeHash := prevhash }
  | .refundChange prev, v => pure { v with refund := prev }
  | .addLogChange txhash, v =>
    match v.logs txhash with
    | [] => throw "slice bounds out of range"
    | [_] => pure { v with logs := Function.update v.logs txhash [], logSize := v.logSize - 1 }
    | logs => pure { v with
        logs := Function.update v.logs txhash logs.dropLast, logSize := v.logSize - 1 }
  | .addPreimageChange hash, v =>
    pure { v with preimages := Function.update v.preimages hash none }
  | .touchChange _, v => pure v

/--
What an entry needs of the state for `revertView` to describe its undoing: a created account is
not in the trie, so removing the live object removes the account, and a reset restores a live
account, not a deleted one.
-/
def JournalEntry.Sound (trie : Address → Option Account) : JournalEntry → Prop
  | .createObjectChange account => trie account = none
  | .resetObjectChange prev => prev.deleted = false
  | _ => True

/-- Changing an account just written into the view changes what was written. -/
theorem View.modify_update (v : View) (account : Address) (acc : AccountView)
    (change : AccountView → AccountView) :
    { v with accounts := Function.update v.accounts account (some acc) }.modify account change =
      .ok { v with accounts := Function.update v.accounts account (some (change acc)) } := by
  simp only [View.modify, Function.update_self, Function.update_idem]
  rfl

namespace DB

/--
What Go keeps of the live set: each object sits at its own address, and an object `Finalise`
deleted is gone from the trie too.
-/
def WellFormed (s : DB) : Prop :=
  ∀ addr o, s.stateObjects addr = some o → o.address = addr ∧ (o.deleted = true → s.trie addr = none)

/-- The getters read a live object at its own address. -/
theorem getStateObject_live {s : DB} (wf : s.WellFormed) {addr : Address} {o : Object}
    (found : s.getStateObject addr = some o) : o.address = addr ∧ o.deleted = false := by
  unfold getStateObject at found
  cases live : s.stateObjects addr with
  | none =>
    -- An account read from the trie is a fresh object at that address.
    rw [live] at found
    obtain ⟨_, _, rfl⟩ := Option.map_eq_some_iff.mp found
    exact ⟨rfl, rfl⟩
  | some obj =>
    rw [live] at found
    by_cases gone : obj.deleted
    · simp [gone] at found
    · simp only [gone, Bool.false_eq_true, ↓reduceIte, Option.some.injEq] at found
      subst found
      exact ⟨(wf addr _ live).1, by simpa using gone⟩

/-- Writing back a live object keeps the live set well formed. -/
theorem WellFormed.setStateObject {s : DB} (wf : s.WellFormed) (o : Object)
    (live : o.deleted = false) : (s.setStateObject o).WellFormed := by
  intro addr obj found
  by_cases here : addr = o.address
  · subst here
    simp only [DB.setStateObject, Function.update_self, Option.some.injEq] at found
    subst found
    simp [live]
  · simp only [DB.setStateObject, Function.update_of_ne here] at found
    exact wf addr obj found

/-- Writing back an object that is not deleted makes it what the getters read at its address. -/
theorem getStateObject_setStateObject (s : DB) (o : Object) (live : o.deleted = false)
    (addr : Address) :
    (s.setStateObject o).getStateObject addr =
      if addr = o.address then some o else s.getStateObject addr := by
  by_cases here : addr = o.address
  · subst here
    simp [getStateObject, setStateObject, live]
  · simp [getStateObject, setStateObject, here]

/-- Writing back a live object changes the view at its address only. -/
theorem view_setStateObject (s : DB) (o : Object) (live : o.deleted = false) :
    (s.setStateObject o).view =
      { s.view with accounts := Function.update s.view.accounts o.address (some (o.view s.db)) } := by
  simp only [view, setStateObject]
  congr 1
  funext addr
  rw [← setStateObject, getStateObject_setStateObject s o live]
  by_cases here : addr = o.address
  · subst here
    simp
  · simp [here]

end DB

namespace DB

/-- The view reads a live object at its address. -/
theorem view_accounts_of_getStateObject {s : DB} {addr : Address} {o : Object}
    (found : s.getStateObject addr = some o) : s.view.accounts addr = some (o.view s.db) := by
  simp [view, found]

/-- Changing a live object through `revertStateObject` changes its view by the matching change. -/
theorem view_revertStateObject {s : DB} (wf : s.WellFormed) (account : Address)
    (change : Object → Object) (viewChange : AccountView → AccountView)
    (commutes : ∀ o, (change o).view s.db = viewChange (o.view s.db))
    (kept : ∀ o, (change o).address = o.address ∧ (change o).deleted = o.deleted) :
    (s.revertStateObject account change).map view = s.view.modify account viewChange := by
  unfold revertStateObject View.modify
  cases found : s.getStateObject account with
  | none =>
    have missing : s.view.accounts account = none := by simp [view, found]
    rw [missing]
    rfl
  | some obj =>
    obtain ⟨placed, live⟩ := getStateObject_live wf found
    rw [view_accounts_of_getStateObject found]
    have still : (change obj).deleted = false := (kept obj).2.trans live
    show Except.ok (view (s.setStateObject (change obj))) = _
    rw [view_setStateObject s (change obj) still, (kept obj).1, placed, commutes]
    rfl

end DB

namespace JournalEntry

/-- Each Go revert changes the view as `revertView` says. -/
theorem revert_view (e : JournalEntry) (s : DB) (wf : s.WellFormed) (sound : e.Sound s.trie) :
    (e.revert s).map DB.view = e.revertView s.db s.view := by
  cases e with
  | createObjectChange account =>
    -- Without its live object the account is read from the trie, which does not hold it.
    show Except.ok _ = Except.ok _
    congr 1
    simp only [DB.view, View.mk.injEq, and_true]
    funext addr
    by_cases here : addr = account
    · subst here
      simp only [DB.getStateObject, Function.update_self]
      rw [show s.trie addr = none from sound]
      rfl
    · simp [DB.getStateObject, here]
  | resetObjectChange prev =>
    show Except.ok _ = Except.ok _
    rw [DB.view_setStateObject s prev sound]
  | suicideChange account prev prevbalance =>
    simp only [revert, revertView]
    cases found : s.getStateObject account with
    | none =>
      rw [show s.view.accounts account = none by simp [DB.view, found]]
      rfl
    | some obj =>
      obtain ⟨placed, live⟩ := DB.getStateObject_live wf found
      rw [DB.view_accounts_of_getStateObject found]
      show Except.ok (DB.view (s.setStateObject _)) = _
      rw [DB.view_setStateObject s, ← placed]
      · rfl
      · exact live
  | balanceChange account prev =>
    exact DB.view_revertStateObject wf account _ _ (fun _ => rfl) (fun _ => ⟨rfl, rfl⟩)
  | nonceChange account prev =>
    exact DB.view_revertStateObject wf account _ _ (fun _ => rfl) (fun _ => ⟨rfl, rfl⟩)
  | storageChange account key prevalue =>
    refine DB.view_revertStateObject wf account _ _ (fun o => ?_) (fun _ => ⟨rfl, rfl⟩)
    -- The written key reads the restored value, and every other key what it read before.
    simp only [Object.view, Object.setState, AccountView.mk.injEq, true_and]
    refine ⟨rfl, ?_, trivial⟩
    funext k
    by_cases here : k = key
    · subst here
      simp [Object.GetState]
    · simp only [Object.GetState, Function.update_of_ne here]
      rfl
  | codeChange account prevcode prevhash =>
    exact DB.view_revertStateObject wf account _ _ (fun _ => rfl) (fun _ => ⟨rfl, rfl⟩)
  | refundChange prev => rfl
  | addLogChange txhash =>
    simp only [revert, revertView, DB.view]
    -- Both sides read the same logs of the transaction.
    rcases s.logs txhash with _ | ⟨_, _ | ⟨_, _⟩⟩ <;> rfl
  | addPreimageChange hash => rfl
  | touchChange account => rfl

/--
Undoing an entry keeps the live set well formed, and the trie, the database and the next
revision id as they are.
-/
theorem revert_keeps (e : JournalEntry) {s t : DB} (wf : s.WellFormed) (sound : e.Sound s.trie)
    (reverted : e.revert s = .ok t) :
    t.WellFormed ∧ t.trie = s.trie ∧ t.db = s.db ∧ t.nextRevisionID = s.nextRevisionID := by
  -- The reverts that write an object back write a live one.
  have written : ∀ o, o.deleted = false → (s.setStateObject o).WellFormed ∧
      (s.setStateObject o).trie = s.trie ∧ (s.setStateObject o).db = s.db ∧
      (s.setStateObject o).nextRevisionID = s.nextRevisionID :=
    fun o live => ⟨wf.setStateObject o live, rfl, rfl, rfl⟩
  have modified : ∀ account (change : Object → Object),
      s.revertStateObject account change = .ok t → (∀ o, (change o).deleted = o.deleted) →
        t.WellFormed ∧ t.trie = s.trie ∧ t.db = s.db ∧ t.nextRevisionID = s.nextRevisionID := by
    intro account change done kept
    unfold DB.revertStateObject at done
    cases found : s.getStateObject account with
    | none => simp [found] at done
    | some obj =>
      simp only [found] at done
      cases done
      exact written _ ((kept obj).trans (DB.getStateObject_live wf found).2)
  cases e with
  | createObjectChange account =>
    cases reverted
    refine ⟨fun addr o live => ?_, rfl, rfl, rfl⟩
    by_cases here : addr = account
    · subst here
      simp at live
    · simp only [Function.update_of_ne here] at live
      exact wf addr o live
  | resetObjectChange prev =>
    cases reverted
    exact written prev sound
  | suicideChange account prev prevbalance =>
    simp only [revert] at reverted
    cases found : s.getStateObject account with
    | none =>
      simp only [found] at reverted
      cases reverted
      exact ⟨wf, rfl, rfl, rfl⟩
    | some obj =>
      simp only [found] at reverted
      cases reverted
      exact written _ (DB.getStateObject_live wf found).2
  | balanceChange account prev => exact modified account _ reverted fun _ => rfl
  | nonceChange account prev => exact modified account _ reverted fun _ => rfl
  | storageChange account key prevalue => exact modified account _ reverted fun _ => rfl
  | codeChange account prevcode prevhash => exact modified account _ reverted fun _ => rfl
  | refundChange prev =>
    cases reverted
    exact ⟨wf, rfl, rfl, rfl⟩
  | addLogChange txhash =>
    simp only [revert] at reverted
    split at reverted <;> cases reverted <;> exact ⟨wf, rfl, rfl, rfl⟩
  | addPreimageChange hash =>
    cases reverted
    exact ⟨wf, rfl, rfl, rfl⟩
  | touchChange account =>
    cases reverted
    exact ⟨wf, rfl, rfl, rfl⟩

end JournalEntry

namespace DB

/--
What undoing keeps of a state: a well-formed live set over the same trie and database, and the
next revision id.
-/
def Keeps (s t : DB) : Prop :=
  t.WellFormed ∧ t.trie = s.trie ∧ t.db = s.db ∧ t.nextRevisionID = s.nextRevisionID

/-- Undoing a sound entry from a state that `s` keeps gives one that `s` keeps. -/
theorem Keeps.revert {s t u : DB} {e : JournalEntry} (sound : e.Sound s.trie) (kept : Keeps s t)
    (reverted : e.revert t = .ok u) : Keeps s u := by
  obtain ⟨wf, trie, db, next⟩ := kept
  obtain ⟨wf', trie', db', next'⟩ := e.revert_keeps wf (trie ▸ sound) reverted
  exact ⟨wf', trie'.trans trie, db'.trans db, next'.trans next⟩

/-- Undoing sound entries changes the view as undoing them on the view does. -/
theorem undo_view {s : DB} (wf : s.WellFormed) (entries : List JournalEntry)
    (sound : ∀ e ∈ entries, e.Sound s.trie) :
    (Journal.undo JournalEntry.revert entries s).map view =
      Journal.undo (JournalEntry.revertView s.db) entries s.view := by
  have commutes : ∀ e ∈ entries, ∀ t, Keeps s t →
      (e.revert t).map view = e.revertView s.db t.view := by
    rintro e listed t ⟨wf', trie, db, -⟩
    rw [← db]
    exact e.revert_view t wf' (trie ▸ sound e listed)
  exact Journal.undo_map view JournalEntry.revert _ (Keeps s) entries commutes
    (fun e listed _ _ => Keeps.revert (sound e listed)) s ⟨wf, rfl, rfl, rfl⟩

/-- Undoing sound entries keeps the live set well formed over the same trie and database. -/
theorem undo_keeps {s t : DB} (wf : s.WellFormed) {entries : List JournalEntry}
    (sound : ∀ e ∈ entries, e.Sound s.trie)
    (undone : Journal.undo JournalEntry.revert entries s = .ok t) : Keeps s t :=
  Journal.undo_keeps JournalEntry.revert (Keeps s) entries
    (fun e listed _ _ => Keeps.revert (sound e listed)) s t ⟨wf, rfl, rfl, rfl⟩ undone

end DB

namespace Object

/--
An object method journals what undoing needs: it keeps the object's address and liveness, its
entries need nothing of the trie, and undoing them on any view puts the object's old view back.
-/
structure Restores (db : Database) (o : Object) (changed : List JournalEntry × Object) : Prop where
  address_eq : changed.2.address = o.address
  deleted_eq : changed.2.deleted = o.deleted
  sound : ∀ e ∈ changed.1, ∀ trie, e.Sound trie
  undo_eq : ∀ v : View, Journal.undo (JournalEntry.revertView db) changed.1
      { v with accounts := Function.update v.accounts o.address (some (changed.2.view db)) } =
    .ok { v with accounts := Function.update v.accounts o.address (some (o.view db)) }

variable {db : Database} (o : Object)

/-- A method that changes nothing and journals nothing restores trivially. -/
theorem Restores.unchanged : Restores db o ([], o) :=
  ⟨rfl, rfl, by simp, fun _ => rfl⟩

/-- A touch is journalled, and undoing it does nothing. -/
theorem Restores.touched : Restores db o ([.touchChange o.address], o) :=
  ⟨rfl, rfl, fun _ listed _ => by rw [List.mem_singleton.mp listed]; trivial, fun _ => rfl⟩

theorem SetBalance_restores (amount : Int) : Restores db o (o.SetBalance amount) where
  address_eq := rfl
  deleted_eq := rfl
  sound := fun _ _ _ => by simp_all [SetBalance, JournalEntry.Sound]
  undo_eq v := by
    simp only [SetBalance, Journal.undo_singleton, JournalEntry.revertView, View.modify_update]
    rfl

theorem AddBalance_restores (amount : Int) : Restores db o (o.AddBalance db amount) := by
  unfold AddBalance
  split
  · split
    · exact Restores.touched o
    · exact Restores.unchanged o
  · exact SetBalance_restores o _

theorem SubBalance_restores (amount : Int) : Restores db o (o.SubBalance amount) := by
  unfold SubBalance
  split
  · exact Restores.unchanged o
  · exact SetBalance_restores o _

theorem SetNonce_restores (nonce : UInt64) : Restores db o (o.SetNonce nonce) where
  address_eq := rfl
  deleted_eq := rfl
  sound := fun _ _ _ => by simp_all [SetNonce, JournalEntry.Sound]
  undo_eq v := by
    simp only [SetNonce, Journal.undo_singleton, JournalEntry.revertView, View.modify_update]
    rfl

/-- The code `Code` read, set back with the old hash, reads the same. -/
theorem restoredCode_Code : restoredCode db (o.Code db) o.data.CodeHash = o.Code db := by
  unfold restoredCode
  by_cases read : o.Code db = []
  · -- Nothing was read: the account has no code set, and its hash names none.
    rw [if_neg (not_not.mpr read), read]
    unfold Code at read
    split at read
    · contradiction
    · rename_i unset
      split at read
      · rw [if_pos ‹_›]
      · rw [if_neg ‹_›, read]
  · rw [if_pos read]

theorem SetCode_restores (codeHash : Hash) (code : Bytes) :
    Restores db o (o.SetCode db codeHash code) where
  address_eq := rfl
  deleted_eq := rfl
  sound := fun _ _ _ => by simp_all [SetCode, JournalEntry.Sound]
  undo_eq v := by
    simp only [SetCode, Journal.undo_singleton, JournalEntry.revertView, View.modify_update]
    rw [restoredCode_Code]
    rfl

theorem SetState_restores (key value : Hash) : Restores db o (o.SetState db key value) := by
  unfold SetState
  dsimp only
  split
  · exact Restores.unchanged o
  · refine ⟨rfl, rfl, fun _ _ _ => by simp_all [JournalEntry.Sound], fun v => ?_⟩
    -- The written key reads its old value again, and the others never changed.
    have restored : Function.update ((o.setState key value).GetState db) key (o.GetState db key) =
        o.GetState db := by
      funext k
      by_cases here : k = key
      · subst here
        simp
      · simp only [Function.update_of_ne here, setState, GetState]
        rfl
    simp only [Journal.undo_singleton, JournalEntry.revertView, View.modify_update]
    simp only [view, restored]
    rfl

end Object

/-- Writing back what the view already reads changes nothing. -/
theorem View.update_self (v : View) (account : Address) :
    { v with accounts := Function.update v.accounts account (v.accounts account) } = v := by
  rw [Function.update_eq_self]

namespace DB

/--
`t` is `s` after journalled changes: the live set is well formed over the same trie and
database, the revisions have grown by snapshots taken since, the journal has grown by sound
entries, and undoing them on `t`'s view gives `s`'s view back.
-/
structure Journalled (s t : DB) : Prop where
  wf : t.WellFormed
  trie_eq : t.trie = s.trie
  db_eq : t.db = s.db
  next_le : s.nextRevisionID ≤ t.nextRevisionID
  revisions : ∃ later, t.validRevisions = s.validRevisions ++ later ∧
    ∀ r ∈ later, s.nextRevisionID ≤ r.id ∧ r.id < t.nextRevisionID
  grown : ∃ entries, t.journal = s.journal ++ entries ∧ (∀ e ∈ entries, e.Sound s.trie) ∧
    Journal.undo (JournalEntry.revertView s.db) entries t.view = .ok s.view

namespace Journalled

/-- No change is a journalled change. -/
theorem refl {s : DB} (wf : s.WellFormed) : Journalled s s :=
  ⟨wf, rfl, rfl, le_rfl, ⟨[], by simp, by simp⟩, [], by simp, by simp, rfl⟩

/--
A change that takes no snapshot and journals `entries` is journalled when undoing the entries
gives the old view back.
-/
theorem of_entries {s t : DB} (entries : List JournalEntry) (wf : t.WellFormed)
    (trie_eq : t.trie = s.trie) (db_eq : t.db = s.db)
    (next_eq : t.nextRevisionID = s.nextRevisionID)
    (revisions_eq : t.validRevisions = s.validRevisions)
    (journal_eq : t.journal = s.journal ++ entries) (sound : ∀ e ∈ entries, e.Sound s.trie)
    (undone : Journal.undo (JournalEntry.revertView s.db) entries t.view = .ok s.view) :
    Journalled s t :=
  ⟨wf, trie_eq, db_eq, next_eq.ge, ⟨[], by simp [revisions_eq], by simp⟩, entries, journal_eq,
    sound, undone⟩

/-- Journalled changes compose: the later entries are undone first. -/
theorem trans {s t u : DB} (first : Journalled s t) (second : Journalled t u) : Journalled s u := by
  obtain ⟨_, trie₁, db₁, next₁, ⟨later₁, revisions₁, taken₁⟩, E₁, journal₁, sound₁, undone₁⟩ :=
    first
  obtain ⟨wf₂, trie₂, db₂, next₂, ⟨later₂, revisions₂, taken₂⟩, E₂, journal₂, sound₂, undone₂⟩ :=
    second
  refine ⟨wf₂, trie₂.trans trie₁, db₂.trans db₁, next₁.trans next₂,
    ⟨later₁ ++ later₂, by rw [revisions₂, revisions₁, List.append_assoc], ?_⟩,
    E₁ ++ E₂, by rw [journal₂, journal₁, List.append_assoc], ?_, ?_⟩
  · -- Snapshots taken after `t` have ids from `t`'s next id on, which is past `s`'s.
    intro r listed
    rcases List.mem_append.mp listed with older | newer
    · exact ⟨(taken₁ r older).1, (taken₁ r older).2.trans_le next₂⟩
    · exact ⟨next₁.trans (taken₂ r newer).1, (taken₂ r newer).2⟩
  · intro e listed
    rcases List.mem_append.mp listed with older | newer
    · exact sound₁ e older
    · exact trie₁ ▸ sound₂ e newer
  · rw [Journal.undo_append, ← db₁, undone₂, db₁]
    exact undone₁

end Journalled

/-- An account the getters do not read is not in the trie. -/
theorem trie_eq_none {s : DB} (wf : s.WellFormed) {addr : Address}
    (missing : s.getStateObject addr = none) : s.trie addr = none := by
  unfold getStateObject at missing
  cases live : s.stateObjects addr with
  | none => simpa [live] using missing
  | some obj =>
    -- Only a deleted object hides its account, and `Finalise` took that out of the trie.
    rw [live] at missing
    by_cases gone : obj.deleted
    · exact (wf addr obj live).2 gone
    · simp [gone] at missing

/-- Writing back an object leaves the database alone. -/
@[simp] theorem setStateObject_db (s : DB) (o : Object) : (s.setStateObject o).db = s.db := rfl

/-- Journalling entries leaves the database alone. -/
@[simp] theorem append_db (s : DB) (entries : List JournalEntry) : (s.append entries).db = s.db :=
  rfl

/-- Journalling entries leaves the view alone. -/
@[simp] theorem view_append (s : DB) (entries : List JournalEntry) :
    (s.append entries).view = s.view := rfl

/-- Creating a missing account is journalled: undoing the creation removes the account again. -/
theorem journalled_create {s : DB} (wf : s.WellFormed) {addr : Address}
    (found : s.getStateObject addr = none) {o : Object} (placed : o.address = addr)
    (live : o.deleted = false) :
    Journalled s ((s.append [.createObjectChange addr]).setStateObject o) := by
  refine .of_entries [.createObjectChange addr] (wf.setStateObject o live) rfl rfl rfl rfl rfl ?_ ?_
  · -- The trie does not hold the account either.
    intro e listed
    rw [List.mem_singleton.mp listed]
    exact trie_eq_none wf found
  · have missing : s.view.accounts addr = none := by simp [view, found]
    rw [Journal.undo_singleton, view_setStateObject _ o live, view_append, placed]
    simp only [JournalEntry.revertView, Function.update_idem]
    rw [← missing, View.update_self]
    rfl

/--
Resetting a live account is journalled: undoing the reset writes the old object back, whatever
object the account holds by then.
-/
theorem journalled_reset {s : DB} (wf : s.WellFormed) {addr : Address} {prev : Object}
    (found : s.getStateObject addr = some prev) {o : Object} (placed : o.address = addr)
    (live : o.deleted = false) :
    Journalled s ((s.append [.resetObjectChange prev]).setStateObject o) := by
  obtain ⟨prevPlaced, prevLive⟩ := getStateObject_live wf found
  refine .of_entries [.resetObjectChange prev] (wf.setStateObject o live) rfl rfl rfl rfl rfl ?_ ?_
  · intro e listed
    rw [List.mem_singleton.mp listed]
    exact prevLive
  · rw [Journal.undo_singleton, view_setStateObject _ o live, view_append, placed]
    simp only [JournalEntry.revertView, prevPlaced, Function.update_idem]
    rw [← view_accounts_of_getStateObject found, View.update_self]
    rfl

/-- Running an object method on a live account, with its entries journalled, is journalled. -/
theorem journalled_update_live {s : DB} (wf : s.WellFormed) {addr : Address} {obj : Object}
    (found : s.getStateObject addr = some obj) {changed : List JournalEntry × Object}
    (r : Object.Restores s.db obj changed) : Journalled s (s.update changed) := by
  obtain ⟨placed, live⟩ := getStateObject_live wf found
  have live' : changed.2.deleted = false := r.deleted_eq.trans live
  refine .of_entries changed.1 (wf.setStateObject _ live') rfl rfl rfl rfl rfl
    (fun e listed => r.sound e listed s.trie) ?_
  -- The object's old view is what the getters read before.
  simp only [update, view_setStateObject _ _ live', view_append, append_db, r.address_eq]
  rw [r.undo_eq, placed, ← view_accounts_of_getStateObject found, View.update_self]

/--
A setter that finds or creates the account's object and runs an object method on it is journalled,
when the method restores the object's view.
-/
theorem journalled_update {s : DB} (wf : s.WellFormed) (addr : Address)
    (method : Database → Object → List JournalEntry × Object)
    (restores : ∀ o, Object.Restores s.db o (method s.db o)) :
    Journalled s ((s.GetOrNewStateObject addr).2.update
      (method (s.GetOrNewStateObject addr).2.db (s.GetOrNewStateObject addr).1)) := by
  unfold GetOrNewStateObject
  cases found : s.getStateObject addr with
  | some obj => exact journalled_update_live wf found (restores obj)
  | none =>
    -- The account is created first, and the method then runs on the fresh live object.
    have fresh : (Object.newObject addr s.emptyAccount).address = addr := rfl
    have created := journalled_create wf found fresh rfl
    have live : ((s.append [.createObjectChange addr]).setStateObject
        (Object.newObject addr s.emptyAccount)).getStateObject addr =
          some (Object.newObject addr s.emptyAccount) := by
      rw [getStateObject_setStateObject _ _ rfl, if_pos fresh.symm]
    simp only [createObject, found]
    exact created.trans (journalled_update_live created.wf live (restores _))

end DB

end State

end Harmony
